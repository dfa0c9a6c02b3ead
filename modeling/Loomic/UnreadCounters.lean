-- The counters of unread messages (`HINCRBY` and `HDEL` on unread:{user}). The
-- increment is a task of its own, spawned after the `LPUSH` that it counts, so a
-- read may come in between.
import Mathlib.Data.List.Perm.Basic
import Loomic.Delivery

open loomic.frame loomic.routing loomic.server loomic.session_run machines

namespace loomic.unread_counters

/-! ## The counters next to the server -/

/-- The commands whose order decides what should be counted. -/
inductive Command
  | lpush (user_id : UserId) (message : OutboundMessage)
  | hdel_unread (user_id : UserId) (conv_id : ConvId)

/-- The hashes, the increments that have been spawned and not been executed, and the history,
oldest command first. -/
structure Counters (ρ : Type) where
  server : Server ρ
  unread : UserId → ConvId → Option Int
  detached : List (UserId × ConvId)
  log : List Command

/-- A step of the server: a connect, a flush, a part of a routing; a spawned increment, the `n`-th
one; or the `HDEL` of a read, over HTTP or WebSocket. What has been sent to Redis is executed
although the process may have ended. -/
inductive Label (ρ : Type)
  | server (l : server.Label ρ)
  | hincrby_unread (n : Nat)
  | hdel_unread (user_id : UserId) (conv_id : ConvId)

variable {ρ : Type} [DecidableEq ρ]

/-- What the `LPUSH` of a routing adds to the queue of whom. -/
def pushed (w : Server ρ) : server.Label ρ → Option (OutboundMessage × UserId)
  | .lpushed s =>
    match (w.sessions s).route with
    | some (.waiting item member_id _ _) => some (item.message, member_id)
    | _ => none
  | _ => none

/-- After the `LPUSH` the routing spawns the increment. -/
def Counters.push (w : Counters ρ) : Option (OutboundMessage × UserId) → Counters ρ
  | none => w
  | some (message, member_id) =>
    { w with
      detached := w.detached ++ [(member_id, message.conv_id)]
      log := w.log ++ [.lpush member_id message] }

def Counters.set (w : Counters ρ) (user_id : UserId) (conv_id : ConvId) (count : Option Int) :
    Counters ρ :=
  let fields := Function.update (w.unread user_id) conv_id count
  { w with unread := Function.update w.unread user_id fields }

def step (verify : Bytes → Option UserId) (w : Counters ρ) : Label ρ → Option (Counters ρ)
  | .server l => (w.server.step verify l).map fun server =>
    { w.push (pushed w.server l) with server := server }
  | .hincrby_unread n =>
    match w.detached[n]? with
    | none => none
    | some (user_id, conv_id) =>
      let incremented := (w.unread user_id conv_id).getD 0 + 1
      some ({ w with detached := w.detached.eraseIdx n }.set user_id conv_id (some incremented))
  | .hdel_unread user_id conv_id =>
    let log := w.log ++ [Command.hdel_unread user_id conv_id]
    some ({ w with log := log }.set user_id conv_id none)

/-- The counters from the start of the server on. -/
def counting (verify : Bytes → Option UserId) (transport : ρ → Transport) :
    Machine (Counters ρ) (Label ρ) where
  start :=
    { server := (chat_server verify transport).start
      unread := fun _ _ => none
      detached := []
      log := [] }
  step := step verify

/-! ## What they should count -/

/-- One command more: a chat message of the conversation counts, and a read starts again. -/
def count (user_id : UserId) (conv_id : ConvId) (n : Nat) : Command → Nat
  | .lpush v message =>
    if v = user_id ∧ message.conv_id = conv_id ∧ message.msg_type = .CHAT then n + 1 else n
  | .hdel_unread v c => if v = user_id ∧ c = conv_id then 0 else n

/-- The chat messages of the conversation that were queued for the user after his last read. -/
def queued_since_read (log : List Command) (user_id : UserId) (conv_id : ConvId) : Nat :=
  log.foldl (count user_id conv_id) 0

def Exact (w : Counters ρ) : Prop :=
  ∀ user_id conv_id,
    (w.unread user_id conv_id).getD 0 = queued_since_read w.log user_id conv_id

/-- All detached tasks have finished. -/
def AtRest (w : Counters ρ) : Prop := w.detached = []

def IsIncrement : Label ρ → Prop
  | .hincrby_unread _ => True
  | _ => False

/-- The increments of a field that have still to be executed. -/
def Counters.in_flight (w : Counters ρ) (user_id : UserId) (conv_id : ConvId) : Nat :=
  w.detached.countP fun field => field.1 = user_id ∧ field.2 = conv_id

/-- A read finds no increment of its field in flight. -/
def ReadsFindNoIncrement (w : Counters ρ) : Label ρ → Prop
  | .hdel_unread user_id conv_id => w.in_flight user_id conv_id = 0
  | _ => True

instance (w : Counters ρ) : ∀ a, Decidable (ReadsFindNoIncrement w a)
  | .hdel_unread _ _ => inferInstanceAs (Decidable (_ = 0))
  | .server _ | .hincrby_unread _ => isTrue trivial

/-! ## Only chat messages are routed -/

/-- What a session waits to push is a chat message. -/
def OnlyChat (sessions : ρ → ISession) : Prop :=
  ∀ s item member_id rest receipts,
    (sessions s).route = some (.waiting item member_id rest receipts) →
      item.message.msg_type = .CHAT

section OnlyChat

variable {w w' : Server ρ} {s : ρ} {sessions : ρ → ISession} {ss : ISession}

theorem onlyChat_update (h : OnlyChat sessions)
    (hss : ∀ item member_id rest receipts,
      ss.route = some (.waiting item member_id rest receipts) → item.message.msg_type = .CHAT) :
    OnlyChat (Function.update sessions s ss) := by
  intro t item member_id rest receipts hroute
  by_cases hts : t = s
  · subst hts
    rw [Function.update_self] at hroute
    exact hss item member_id rest receipts hroute
  · rw [Function.update_of_ne hts] at hroute
    exact h t item member_id rest receipts hroute

/-- A change that keeps the route. -/
theorem onlyChat_same (h : OnlyChat sessions) (hss : ss.route = (sessions s).route) :
    OnlyChat (Function.update sessions s ss) :=
  onlyChat_update h fun item member_id rest receipts hroute =>
    h s item member_id rest receipts (hss.symm.trans hroute)

theorem onlyChat_unrouted (h : OnlyChat sessions) (hss : ss.route = none) :
    OnlyChat (Function.update sessions s ss) := by
  apply onlyChat_update h
  intro item member_id rest receipts hroute
  rw [hss] at hroute
  cases hroute

theorem onlyChat_notify (h : OnlyChat w.sessions) (user_id : UserId) :
    OnlyChat (w.notify user_id).sessions := by
  unfold Server.notify
  split
  · exact onlyChat_same h rfl
  · exact h

theorem onlyChat_notify_all (h : OnlyChat w.sessions) (members : List UserId) :
    OnlyChat (w.notify_all members).sessions := by
  induction members generalizing w with
  | nil => exact h
  | cons member_id rest ih =>
    unfold Server.notify_all
    split
    · exact ih (onlyChat_same h rfl)
    · exact h

theorem onlyChat_perform (h : OnlyChat w.sessions) (e : Effect Stored) :
    OnlyChat (w.perform s e).sessions := by
  cases e with
  | registry_insert user_id => exact onlyChat_same h rfl
  | enqueue item => exact onlyChat_same h rfl
  | push_text j => exact onlyChat_same h rfl
  | relay target_id message => exact onlyChat_notify h target_id
  | route_message hdr payload =>
    apply onlyChat_update h
    rintro item member_id rest receipts ⟨⟩
  | route_text type j =>
    apply onlyChat_update h
    rintro item member_id rest receipts ⟨⟩
  | _ => exact h

theorem onlyChat_effects (h : OnlyChat w.sessions) (es : List (Effect Stored)) :
    OnlyChat (es.foldl (Server.perform s) w).sessions := by
  induction es generalizing w with
  | nil => exact h
  | cons e es ih => exact ih (onlyChat_perform h e)

theorem onlyChat_resume {verify : Bytes → Option UserId} {ev : AnyEvent} (h : OnlyChat w.sessions)
    (hr : w.resume verify s ev = some w') : OnlyChat w'.sessions := by
  obtain ⟨⟨run, effects⟩, _, hr⟩ := Option.bind_eq_some_iff.mp hr
  obtain ⟨w₀, hbegin, rfl⟩ := Option.map_eq_some_iff.mp hr
  apply onlyChat_effects
  unfold Server.begin_segment at hbegin
  obtain ⟨w₁, hw₁, rfl⟩ := Option.map_eq_some_iff.mp hbegin
  apply onlyChat_unrouted _ rfl
  split at hw₁
  · split at hw₁
    · obtain rfl := Option.some.inj hw₁
      exact onlyChat_same h rfl
    · cases hw₁
  · obtain rfl := Option.some.inj hw₁
    exact h

theorem onlyChat_settle {verify : Bytes → Option UserId} (h : OnlyChat w.sessions)
    (hs : w.settle verify s = some w') : OnlyChat w'.sessions := by
  unfold Server.settle at hs
  split at hs
  · exact onlyChat_resume h hs
  · obtain rfl := Option.some.inj hs
    exact h

theorem onlyChat_visit {item : Item} {receipts : Receipts} {members : List UserId}
    (h : OnlyChat w.sessions) (hitem : item.message.msg_type = .CHAT) :
    OnlyChat (w.visit s item receipts members).sessions := by
  induction members generalizing w with
  | nil => exact onlyChat_unrouted h rfl
  | cons member_id rest ih =>
    unfold Server.visit
    split
    · rename_i t _
      apply ih
      intro t' item' member_id' rest' receipts' hroute
      obtain ⟨posts, queue, hss⟩ := deliver_sessions w s t item receipts member_id t'
      rw [hss] at hroute
      exact h t' item' member_id' rest' receipts' hroute
    · apply onlyChat_update h
      rintro item' member_id' rest' receipts' ⟨⟩
      exact hitem

/-- A routing makes a chat message. -/
theorem plan_chat {request : Request} {user_id : UserId} {answers : Answers} {plan : Plan}
    (h : request.plan user_id answers = some (some plan)) : plan.message.msg_type = .CHAT := by
  cases request with
  | tcp hdr payload =>
    simp only [Request.plan] at h
    split at h <;> cases h <;> rfl
  | ws type j =>
    simp only [Request.plan] at h
    split_ifs at h
    · obtain ⟨target, _, htarget⟩ := Option.map_eq_some_iff.mp h
      obtain ⟨⟨conv_id, content⟩, _, hmember⟩ := Option.bind_eq_some_iff.mp htarget
      obtain ⟨recipient_id, _, rfl⟩ := Option.map_eq_some_iff.mp hmember
      rfl
    · obtain ⟨target, _, htarget⟩ := Option.map_eq_some_iff.mp h
      obtain ⟨⟨group_id, content⟩, _, rfl⟩ := Option.map_eq_some_iff.mp htarget
      rfl
    · simp at h

theorem onlyChat_start_routing {answers : Answers} (h : OnlyChat w.sessions)
    (hs : w.start_routing s answers = some w') : OnlyChat w'.sessions := by
  unfold Server.start_routing at hs
  split at hs
  · obtain ⟨plan, hplan, rfl⟩ := Option.map_eq_some_iff.mp hs
    cases plan with
    | none => exact onlyChat_unrouted h rfl
    | some plan => exact onlyChat_visit h (plan_chat hplan)
  · cases hs

theorem onlyChat_go_on (h : OnlyChat w.sessions) (hs : w.go_on_routing s = some w') :
    OnlyChat w'.sessions := by
  unfold Server.go_on_routing at hs
  split at hs
  · rename_i item member_id rest receipts hroute
    obtain rfl := Option.some.inj hs
    exact onlyChat_visit h (h s item member_id rest receipts hroute)
  · cases hs

theorem onlyChat_step {verify : Bytes → Option UserId} {l : server.Label ρ}
    (h : OnlyChat w.sessions) (hs : w.step verify l = some w') : OnlyChat w'.sessions := by
  replace hs := (step_eq_some.mp hs).2
  cases l with
  | resume s ev =>
    simp only [Server.act] at hs
    split_ifs at hs
    exact onlyChat_resume h hs
  | fan_out s answers =>
    obtain ⟨w₁, hrouted, hsettled⟩ := Option.bind_eq_some_iff.mp hs
    exact onlyChat_settle (onlyChat_start_routing h hrouted) hsettled
  | lpushed s =>
    obtain ⟨w₁, hrouted, hsettled⟩ := Option.bind_eq_some_iff.mp hs
    exact onlyChat_settle (onlyChat_go_on h hrouted) hsettled
  | notify user_id =>
    obtain rfl := Option.some.inj hs
    exact onlyChat_notify h user_id
  | delete_message members =>
    obtain rfl := Option.some.inj hs
    exact onlyChat_notify_all h members
  | notice_lpushed k =>
    obtain ⟨⟨member_id, rest⟩, _, rfl⟩ := Option.map_eq_some_iff.mp hs
    exact onlyChat_notify_all (w := w.lpush_notice k member_id) h rest
  | run_post s =>
    simp only [Server.act] at hs
    split at hs
    · cases hs
    · rename_i p rest _
      obtain rfl := Option.some.inj hs
      unfold Server.run_post
      split_ifs
      · have hposts : OnlyChat (w.modify s fun ss => { ss with posts := rest }).sessions :=
          onlyChat_same h rfl
        exact onlyChat_same hposts rfl
      · exact h
  | start s =>
    obtain ⟨q, _, rfl⟩ := Option.map_eq_some_iff.mp hs
    exact onlyChat_same h rfl
  | written s =>
    obtain ⟨q, _, rfl⟩ := Option.map_eq_some_iff.mp hs
    exact onlyChat_same h rfl
  | failed s =>
    obtain ⟨q, _, rfl⟩ := Option.map_eq_some_iff.mp hs
    exact onlyChat_same h rfl
  | destroy s =>
    simp only [Server.act] at hs
    split_ifs at hs
    obtain rfl := Option.some.inj hs
    exact onlyChat_same h rfl

omit [DecidableEq ρ] in
theorem pushed_chat {l : server.Label ρ} {message : OutboundMessage} {member_id : UserId}
    (h : OnlyChat w.sessions) (hp : pushed w l = some (message, member_id)) :
    message.msg_type = .CHAT := by
  unfold pushed at hp
  split at hp
  · rename_i s
    split at hp
    · rename_i item member_id' rest receipts hroute
      cases hp
      exact h s item _ rest receipts hroute
    · cases hp
  · cases hp

end OnlyChat

/-! ## The balance -/

/-- The counters, with the increments that are in flight, are exact. -/
def Balanced (w : Counters ρ) : Prop :=
  ∀ user_id conv_id, (w.unread user_id conv_id).getD 0 + w.in_flight user_id conv_id =
    queued_since_read w.log user_id conv_id

section Balance

variable {w w' : Counters ρ} {user_id : UserId} {conv_id : ConvId}

theorem queued_since_read_snoc (log : List Command) (cmd : Command) :
    queued_since_read (log ++ [cmd]) user_id conv_id =
      count user_id conv_id (queued_since_read log user_id conv_id) cmd := by
  unfold queued_since_read
  rw [List.foldl_append]
  rfl

omit [DecidableEq ρ] in
theorem unread_set (u : UserId) (c : ConvId) (n : Option Int) :
    (w.set u c n).unread user_id conv_id =
      if u = user_id ∧ c = conv_id then n else w.unread user_id conv_id := by
  unfold Counters.set
  by_cases hu : u = user_id
  · subst hu
    by_cases hc : c = conv_id
    · subst hc
      simp
    · simp [hc, Function.update_of_ne (Ne.symm hc)]
  · simp [hu, Function.update_of_ne (Ne.symm hu)]

theorem countP_eraseIdx {α : Type} {p : α → Bool} {l : List α} {n : Nat} {a : α}
    (h : l[n]? = some a) : l.countP p = (l.eraseIdx n).countP p + if p a then 1 else 0 := by
  obtain ⟨hn, rfl⟩ := List.getElem?_eq_some_iff.mp h
  rw [← (List.getElem_cons_eraseIdx_perm hn).countP_eq p, List.countP_cons]

omit [DecidableEq ρ] in
theorem balanced_push (h : Balanced w) {message : OutboundMessage} {member_id : UserId}
    (hchat : message.msg_type = .CHAT) : Balanced (w.push (some (message, member_id))) := by
  intro user_id conv_id
  have hbalance := h user_id conv_id
  have hcount : count user_id conv_id (queued_since_read w.log user_id conv_id)
      (.lpush member_id message) = queued_since_read w.log user_id conv_id +
        if member_id = user_id ∧ message.conv_id = conv_id then 1 else 0 := by
    unfold count
    by_cases hfield : member_id = user_id ∧ message.conv_id = conv_id <;> simp [hfield, hchat]
  unfold Counters.push Counters.in_flight at *
  dsimp only
  rw [queued_since_read_snoc, hcount, List.countP_append, List.countP_singleton]
  simp only [decide_eq_true_eq]
  omega

/-- The `n`-th increment is executed. -/
def Counters.increment (w : Counters ρ) (n : Nat) (u : UserId) (c : ConvId) : Counters ρ :=
  ({ w with detached := w.detached.eraseIdx n } : Counters ρ).set u c
    (some ((w.unread u c).getD 0 + 1))

omit [DecidableEq ρ] in
/-- What it adds to a field was in flight. -/
theorem total_increment {n : Nat} {u : UserId} {c : ConvId}
    (hn : w.detached[n]? = some (u, c)) (user_id : UserId) (conv_id : ConvId) :
    ((w.increment n u c).unread user_id conv_id).getD 0 +
        (w.increment n u c).in_flight user_id conv_id =
      (w.unread user_id conv_id).getD 0 + w.in_flight user_id conv_id := by
  have herase := countP_eraseIdx (p := fun field => field.1 = user_id ∧ field.2 = conv_id) hn
  unfold Counters.increment
  rw [unread_set]
  unfold Counters.in_flight
  change _ + ((w.detached.eraseIdx n).countP _ : Int) = _
  by_cases hfield : u = user_id ∧ c = conv_id
  · obtain ⟨rfl, rfl⟩ := hfield
    simp only [and_self, decide_true, if_true] at herase
    rw [if_pos ⟨rfl, rfl⟩, Option.getD_some]
    omega
  · simp only [hfield, decide_false, Bool.false_eq_true, if_false] at herase
    rw [if_neg hfield]
    change (w.unread user_id conv_id).getD 0 + _ = _
    omega

omit [DecidableEq ρ] in
/-- What a read leaves of its field, and of the others. -/
theorem balance_hdel (w : Counters ρ) (u : UserId) (c : ConvId) (user_id : UserId)
    (conv_id : ConvId) :
    let w' := ({ w with log := w.log ++ [.hdel_unread u c] } : Counters ρ).set u c none
    (w'.unread user_id conv_id).getD 0 = (if u = user_id ∧ c = conv_id then 0
      else (w.unread user_id conv_id).getD 0) ∧
    w'.in_flight user_id conv_id = w.in_flight user_id conv_id ∧
    queued_since_read w'.log user_id conv_id = (if u = user_id ∧ c = conv_id then 0
      else queued_since_read w.log user_id conv_id) := by
  refine ⟨?_, rfl, ?_⟩
  · rw [unread_set]
    split <;> rfl
  · exact queued_since_read_snoc w.log (.hdel_unread u c)

end Balance

/-! ## Coming to rest -/

section Rest

variable {w w' : Counters ρ} {verify : Bytes → Option UserId} {transport : ρ → Transport}

/-- What the law rests on. -/
structure Kept (w : Counters ρ) : Prop where
  balanced : Balanced w
  chat : OnlyChat w.server.sessions

theorem kept_step {a : Label ρ} (h : Kept w) (hok : ReadsFindNoIncrement w a)
    (hs : step verify w a = some w') : Kept w' := by
  cases a with
  | server l =>
    obtain ⟨server, hserver, rfl⟩ := Option.map_eq_some_iff.mp hs
    refine ⟨?_, onlyChat_step h.chat hserver⟩
    cases hpushed : pushed w.server l with
    | none => exact h.balanced
    | some push =>
      obtain ⟨message, member_id⟩ := push
      exact balanced_push h.balanced (pushed_chat h.chat hpushed)
  | hincrby_unread n =>
    unfold step at hs
    dsimp only at hs
    split at hs
    · cases hs
    · rename_i user_id conv_id hn
      obtain rfl := Option.some.inj hs
      exact ⟨fun u c => (total_increment hn u c).trans (h.balanced u c), h.chat⟩
  | hdel_unread u c =>
    obtain rfl := Option.some.inj hs
    refine ⟨fun user_id conv_id => ?_, h.chat⟩
    have hbalance := h.balanced user_id conv_id
    obtain ⟨hunread, hflight, hqueued⟩ := balance_hdel w u c user_id conv_id
    rw [hunread, hflight, hqueued]
    by_cases hfield : u = user_id ∧ c = conv_id
    · obtain ⟨rfl, rfl⟩ := hfield
      have hzero : w.in_flight u c = 0 := hok
      rw [if_pos ⟨rfl, rfl⟩, if_pos ⟨rfl, rfl⟩, hzero]
      rfl
    · rw [if_neg hfield, if_neg hfield]
      exact hbalance

/-- A read that finds an increment of its field in flight upsets the balance. -/
theorem reads_find_none {a : Label ρ} (hs : step verify w a = some w') (h : Balanced w') :
    ReadsFindNoIncrement w a := by
  cases a with
  | hdel_unread u c =>
    obtain rfl := Option.some.inj hs
    have hbalance := h u c
    obtain ⟨hunread, hflight, hqueued⟩ := balance_hdel w u c u c
    rw [hunread, hflight, hqueued, if_pos ⟨rfl, rfl⟩, if_pos ⟨rfl, rfl⟩] at hbalance
    change w.in_flight u c = 0
    omega
  | server l => trivial
  | hincrby_unread n => trivial

variable (verify transport) in
/-- The detached tasks can finish, and then the counters have what was in flight. -/
theorem comes_to_rest (w : Counters ρ) : ∃ cs w', (∀ a ∈ cs, IsIncrement a) ∧
    (counting verify transport).runFrom w cs = some w' ∧ AtRest w' ∧ w'.log = w.log ∧
    ∀ user_id conv_id, (w'.unread user_id conv_id).getD 0 =
      (w.unread user_id conv_id).getD 0 + w.in_flight user_id conv_id := by
  induction hlen : w.detached.length generalizing w with
  | zero =>
    have hnil : w.detached = [] := List.length_eq_zero_iff.mp hlen
    refine ⟨[], w, fun _ h => absurd h List.not_mem_nil, rfl, hnil, rfl, fun u c => ?_⟩
    unfold Counters.in_flight
    rw [hnil]
    exact (Int.add_zero _).symm
  | succ k ih =>
    obtain ⟨⟨u, c⟩, hfirst⟩ : ∃ field, w.detached[0]? = some field :=
      ⟨_, List.getElem?_eq_getElem (by omega)⟩
    obtain ⟨cs, w', hcs, hrun, hrest, hlog, hunread⟩ := ih (w.increment 0 u c) (by
      change (w.detached.eraseIdx 0).length = k
      rw [List.length_eraseIdx, if_pos (by omega)]
      omega)
    refine ⟨.hincrby_unread 0 :: cs, w', ?_, ?_, hrest, hlog, fun user_id conv_id => ?_⟩
    · intro a ha
      rcases List.mem_cons.mp ha with rfl | ha
      · trivial
      · exact hcs a ha
    · have hstep : step verify w (.hincrby_unread 0) = some (w.increment 0 u c) := by
        unfold step
        dsimp only
        rw [hfirst]
        rfl
      change (step verify w (.hincrby_unread 0)).bind _ = _
      rw [hstep]
      exact hrun
    · rw [hunread, total_increment hfirst]

theorem meets_increments {cs : List (Label ρ)} (hcs : ∀ a ∈ cs, IsIncrement a) (w : Counters ρ) :
    (counting verify transport).MeetsFrom ReadsFindNoIncrement w cs := by
  apply Machine.meetsFrom_of_forall
  intro a ha s
  have hinc := hcs a ha
  cases a with
  | hincrby_unread n => trivial
  | server l => trivial
  | hdel_unread u c => exact hinc.elim

/-- Whenever the detached tasks finish after a part of a run, the counters are exact: this is so
exactly when each read of the run finds no increment of its field in flight. -/
theorem counters_are_exact_at_rest_iff_reads_find_no_increment {as : List (Label ρ)}
    (hr : (counting verify transport).run as = some w) :
    (∀ bs cs t, bs <+: as → (∀ a ∈ cs, IsIncrement a) →
      (counting verify transport).run (bs ++ cs) = some t → AtRest t → Exact t) ↔
      (counting verify transport).Meets ReadsFindNoIncrement as := by
  have hstart : Kept (counting verify transport).start :=
    ⟨fun _ _ => rfl, fun _ _ _ _ _ h => nomatch h⟩
  have hlaw : (∀ bs t, bs <+: as → (counting verify transport).run bs = some t → Balanced t) ↔
      (counting verify transport).Meets ReadsFindNoIncrement as :=
    Machine.always_iff_meets hstart (fun _ _ _ h hok hs => kept_step h hok hs)
      (fun _ h => h.balanced) (fun _ _ _ _ hs h => reads_find_none hs h) hr
  constructor
  · intro hall
    apply hlaw.mp
    intro bs s hb hs user_id conv_id
    obtain ⟨cs, t, hcs, hrun, hrest, hlog, hunread⟩ :=
      comes_to_rest verify transport s
    have ht : (counting verify transport).run (bs ++ cs) = some t := by
      rw [Machine.run, Machine.runFrom_append]
      change ((counting verify transport).run bs).bind _ = _
      rw [hs]
      exact hrun
    rw [← hunread, ← hlog]
    exact hall bs cs t hb hcs ht hrest user_id conv_id
  · intro hm bs cs t hb hcs ht hrest user_id conv_id
    have hmeets : (counting verify transport).Meets ReadsFindNoIncrement (bs ++ cs) := by
      obtain ⟨rest, rfl⟩ := hb
      rw [Machine.Meets, Machine.meetsFrom_append] at hm ⊢
      exact ⟨hm.1, fun s _ => meets_increments hcs s⟩
    have hkept : Kept t :=
      Machine.invariant_of_meets hstart (fun _ _ _ h hok hs => kept_step h hok hs) hmeets ht
    have hbalance := hkept.balanced user_id conv_id
    have hzero : t.in_flight user_id conv_id = 0 := by
      unfold Counters.in_flight
      rw [hrest]
      rfl
    rw [hzero] at hbalance
    omega

end Rest

/-! ## Two sessions -/

/-- User 5 sends to user 7, who is offline; user 7 connects and gets the message from the flush. -/
def offline_message : List (Label (Fin 2)) :=
  (log_in conn_5 5 ++ [flush conn_5 []] ++ send conn_5 7 ++ [server.Label.lpushed conn_5] ++
    log_in conn_7 7 ++ [flush conn_7 [.message (sent 0 5 7)]]).map .server

/-- He reads the conversation after the increment. -/
def counted_run : List (Label (Fin 2)) := offline_message ++ [.hincrby_unread 0, .hdel_unread 7 5]

theorem the_counted_run_is_exact_at_rest :
    ∃ w, (counting verify_byte fun _ => .tcp).run counted_run = some w ∧
      ∀ bs cs t, bs <+: counted_run → (∀ a ∈ cs, IsIncrement a) →
        (counting verify_byte fun _ => .tcp).run (bs ++ cs) = some t → AtRest t → Exact t := by
  obtain ⟨w, hr⟩ : ∃ w, (counting verify_byte fun _ => .tcp).run counted_run = some w := ⟨_, rfl⟩
  exact ⟨w, hr, (counters_are_exact_at_rest_iff_reads_find_no_increment hr).mpr (by decide +kernel)⟩

/-- He reads it before the increment. -/
def overtaken_run : List (Label (Fin 2)) :=
  offline_message ++ [.hdel_unread 7 5, .hincrby_unread 0]

theorem a_message_that_was_read_counts_as_unread :
    ∃ w, (counting verify_byte fun _ => .tcp).run overtaken_run = some w ∧
      AtRest w ∧ ¬ Exact w := by
  refine ⟨_, rfl, rfl, fun h => ?_⟩
  exact absurd (h 7 5) (by decide +kernel)

end loomic.unread_counters
