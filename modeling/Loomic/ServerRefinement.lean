-- The server is a store and forward net: each of its steps is a few moves of
-- the net, one for each message that is posted, stored, flushed, put on a
-- queue, written or lost on the way.
import Loomic.ServerSegments

open loomic.frame loomic.queue loomic.routing loomic.session_registry loomic.session_run
open machines store_forward

namespace loomic.server

variable {ρ : Type} [DecidableEq ρ]

/-! ## The view of the server -/

def Item.sender (item : Item) : UserId := item.message.sender_id

abbrev net : Machine (Net UserId ρ Item) (Move UserId ρ Item) :=
  store_forward.machine Item.no Item.sender 0

def Server.view (w : Server ρ) : Net UserId ρ Item where
  owner t := (w.sessions t).run.user_id
  stage t := (w.sessions t).stage
  active t := (w.sessions t).run.active
  sending t := (w.sessions t).sending
  posts t := (w.sessions t).posts
  queue t := (w.sessions t).queue.write_queue
  in_flight t := (w.sessions t).queue.in_flight
  written t := (w.sessions t).written
  lost t := (w.sessions t).lost
  registry := w.lookup
  offline := w.offline
  routed := w.routed
  puts := w.puts
  receipts := w.receipts
  next_no := w.next_no

/-- The messages in the offline queue of a user. -/
def Server.mail (w : Server ρ) (user_id : UserId) : List Item :=
  (w.offline user_id).filterMap Entry.message?

/-! ## The moves of a step -/

/-- The moves of the effects of a segment; those of the flush are counted with the reply. -/
def effect_moves (self : ρ) (w : Server ρ) : Effect Stored → List (Move UserId ρ Item)
  | .registry_insert user_id => [.join self user_id]
  | .registry_remove user_id => if w.lookup user_id = some self then [.forget user_id] else []
  | .push_text _ => [.push_notice self]
  | .relay target_id _ => (w.lookup target_id).toList.map .post_notice
  | _ => []

def effects_moves (self : ρ) (w : Server ρ) : List (Effect Stored) → List (Move UserId ρ Item)
  | [] => []
  | e :: es => effect_moves self w e ++ effects_moves self (w.perform self e) es

def flush_moves (s : ρ) (run : AnyRun) (ev : AnyEvent) : List (Move UserId ρ Item) :=
  match ev.batch with
  | some batch => [.flush s (batch.takeWhile run.takes).length]
  | none => []

def close_moves (s : ρ) (run : AnyRun) : List (Move UserId ρ Item) :=
  if run.active then [] else [.close s]

def resume_moves (verify : Bytes → Option UserId) (w : Server ρ) (s : ρ) (ev : AnyEvent) :
    List (Move UserId ρ Item) :=
  match (w.sessions s).run.resume verify ev with
  | none => []
  | some (run, effects) => flush_moves s (w.sessions s).run ev ++ close_moves s run ++
      match w.begin_segment s run ev with
      | none => []
      | some w' => effects_moves s w' effects

/-- The receipt that goes with a delivery. -/
def Server.reply (w : Server ρ) (s : ρ) : Receipts → Reply ρ
  | .none => .silent
  | .posted => match w.lookup (w.user s) with
    | some a => .post a
    | none => .silent
  | .pushed => .push

/-- The moves of the loop over the members. -/
def visit_moves (s : ρ) (item : Item) (receipts : Receipts) (w : Server ρ) :
    List UserId → List (Move UserId ρ Item)
  | [] => [.end_send s]
  | member_id :: rest =>
    match w.lookup member_id with
    | some t => .deliver s (w.reply s receipts) ::
        visit_moves s item receipts (w.deliver s item receipts member_id t) rest
    | none => []

def routing_moves (w : Server ρ) (s : ρ) (answers : Answers) : List (Move UserId ρ Item) :=
  match (w.sessions s).route with
  | some (.requested request) =>
    match request.plan (w.user s) answers with
    | some (some plan) => .start_send s ⟨w.next_no, plan.message⟩ plan.members ::
        visit_moves s ⟨w.next_no, plan.message⟩ plan.receipts { w with next_no := w.next_no + 1 }
          plan.members
    | _ => []
  | _ => []

def lpushed_moves (w : Server ρ) (s : ρ) : List (Move UserId ρ Item) :=
  match (w.sessions s).route with
  | some (.waiting item member_id rest receipts) =>
    .store s :: visit_moves s item receipts (w.lpush item member_id) rest
  | _ => []

/-- The moves of the loop of `DELETE /messages`. -/
def notify_all_moves (w : Server ρ) : List UserId → List (Move UserId ρ Item)
  | [] => []
  | member_id :: rest =>
    match w.lookup member_id with
    | some t => .post_notice t :: notify_all_moves (w.post t .notice) rest
    | none => []

def notice_lpushed_moves (w : Server ρ) (k : Nat) : List (Move UserId ρ Item) :=
  match w.deletions[k]? with
  | some (member_id, rest) =>
    .store_notice member_id :: notify_all_moves (w.lpush_notice k member_id) rest
  | none => []

/-- A closure whose frame `enqueue` does not take moves nothing. -/
def run_post_moves (w : Server ρ) (s : ρ) : List (Move UserId ρ Item) :=
  match (w.sessions s).posts with
  | p :: _ => if p.message?.all (w.sessions s).run.dumps then [.take s] else []
  | [] => []

/-- `do_write` takes up the next frame, if there is one. -/
def next_moves (w : Server ρ) (s : ρ) : List (Move UserId ρ Item) :=
  if (w.sessions s).queue.write_queue = [] then [] else [.next s]

def moves (verify : Bytes → Option UserId) (w : Server ρ) : Label ρ → List (Move UserId ρ Item)
  | .resume s ev => resume_moves verify w s ev
  | .fan_out s answers => routing_moves w s answers
  | .lpushed s => lpushed_moves w s
  | .notify user_id => (w.lookup user_id).toList.map .post_notice
  | .delete_message members => notify_all_moves w members
  | .notice_lpushed k => notice_lpushed_moves w k
  | .run_post s => run_post_moves w s
  | .start s => next_moves w s
  | .written s => .wrote s :: next_moves w s
  | .failed s => [.fail s]
  | .destroy s => if w.lookup (w.user s) = some s then [.forget (w.user s)] else []

/-! ## The view of an operation -/

section View

variable (w : Server ρ) (s : ρ)

theorem comp_update {β : Type} (g : ISession → β) (ss : ISession) :
    (fun t => g (Function.update w.sessions s ss t)) =
      Function.update (fun t => g (w.sessions t)) s (g ss) := by
  funext t
  by_cases h : t = s
  · subst h
    simp
  · simp [h]

variable {w s}

theorem alive_modify {f : ISession → ISession}
    (h : (f (w.sessions s)).alive = (w.sessions s).alive) : (w.modify s f).alive = w.alive := by
  unfold Server.alive Server.modify
  rw [comp_update w s ISession.alive, h, Function.update_eq_self]

theorem lookup_modify {f : ISession → ISession}
    (h : (f (w.sessions s)).alive = (w.sessions s).alive) : (w.modify s f).lookup = w.lookup := by
  unfold Server.lookup
  rw [alive_modify h]
  rfl

theorem view_modify_lookup (f : ISession → ISession) : (w.modify s f).view =
    let ss := f (w.sessions s)
    { w.view with
      owner := Function.update w.view.owner s ss.run.user_id
      stage := Function.update w.view.stage s ss.stage
      active := Function.update w.view.active s ss.run.active
      sending := Function.update w.view.sending s ss.sending
      posts := Function.update w.view.posts s ss.posts
      queue := Function.update w.view.queue s ss.queue.write_queue
      in_flight := Function.update w.view.in_flight s ss.queue.in_flight
      written := Function.update w.view.written s ss.written
      lost := Function.update w.view.lost s ss.lost
      registry := (w.modify s f).lookup } := by
  unfold Server.view
  simp only [Server.modify, comp_update w s (·.run.user_id), comp_update w s ISession.stage,
    comp_update w s (·.run.active), comp_update w s ISession.sending,
    comp_update w s ISession.posts, comp_update w s (·.queue.write_queue),
    comp_update w s (·.queue.in_flight), comp_update w s ISession.written,
    comp_update w s ISession.lost]

/-- The view after a change of a session that leaves it alive. -/
theorem view_modify {f : ISession → ISession}
    (h : (f (w.sessions s)).alive = (w.sessions s).alive) : (w.modify s f).view =
    let ss := f (w.sessions s)
    { w.view with
      owner := Function.update w.view.owner s ss.run.user_id
      stage := Function.update w.view.stage s ss.stage
      active := Function.update w.view.active s ss.run.active
      sending := Function.update w.view.sending s ss.sending
      posts := Function.update w.view.posts s ss.posts
      queue := Function.update w.view.queue s ss.queue.write_queue
      in_flight := Function.update w.view.in_flight s ss.queue.in_flight
      written := Function.update w.view.written s ss.written
      lost := Function.update w.view.lost s ss.lost } := by
  rw [view_modify_lookup, lookup_modify h]
  rfl

omit [DecidableEq ρ] in
theorem view_with_registry (registry : SessionRegistry ρ) :
    ({ w with registry := registry } : Server ρ).view =
      { w.view with registry := registry.lookup w.alive } := rfl

omit [DecidableEq ρ] in
theorem view_with_offline (offline : UserId → List Stored) :
    ({ w with offline := offline } : Server ρ).view = { w.view with offline := offline } := rfl

theorem view_post (p : Packet UserId Item) : (w.post s p).view = w.view.post s p := by
  unfold Server.post
  rw [view_modify rfl]
  simp [Server.view, Net.post, append_at, ISession.sending]

theorem view_push (p : Packet UserId Item) : (w.push s p).view = w.view.push s p := by
  unfold Server.push
  rw [view_modify rfl]
  simp [Server.view, Net.push, append_at, ISession.sending]

theorem view_route {route : Option Route} (h : (w.sessions s).sending = none)
    (h' : ∀ item member_id rest receipts, route ≠ some (.waiting item member_id rest receipts)) :
    (w.modify s fun ss => { ss with route := route }).view = w.view := by
  have hsend : ISession.sending { w.sessions s with route := route } = none := by
    unfold ISession.sending
    split
    · rename_i item member_id rest receipts hr
      exact absurd hr (h' item member_id rest receipts)
    · rfl
  rw [view_modify rfl]
  simp only [hsend, ← h]
  simp [Server.view]

theorem view_notify (user_id : UserId) : (net : Machine (Net UserId ρ Item) _).runFrom w.view
    ((w.lookup user_id).toList.map .post_notice) = some (w.notify user_id).view := by
  unfold Server.notify
  rcases w.lookup user_id with _ | t
  · rfl
  · exact congrArg some (view_post .notice).symm

theorem view_notify_all (members : List UserId) :
    (net : Machine (Net UserId ρ Item) _).runFrom w.view (notify_all_moves w members) =
      some (w.notify_all members).view := by
  induction members generalizing w with
  | nil => rfl
  | cons member_id rest ih =>
    rcases ht : w.lookup member_id with _ | t
    · simp only [notify_all_moves, Server.notify_all, ht]
      rfl
    · have hstep : (net : Machine (Net UserId ρ Item) _).step w.view (.post_notice t) =
          some (w.post t .notice).view := congrArg some (view_post .notice).symm
      simp only [notify_all_moves, Server.notify_all, ht, Machine.runFrom, hstep, Option.bind_some]
      exact ih

theorem view_notice_lpushed {k : Nat} {member_id : UserId} {rest : List UserId}
    (hk : w.deletions[k]? = some (member_id, rest)) :
    (net : Machine (Net UserId ρ Item) _).runFrom w.view (notice_lpushed_moves w k) =
      some ((w.lpush_notice k member_id).notify_all rest).view := by
  simp only [notice_lpushed_moves, hk]
  exact view_notify_all (w := w.lpush_notice k member_id) rest

theorem view_registry_remove (user_id : UserId) :
    (net : Machine (Net UserId ρ Item) _).runFrom w.view
      (if w.lookup user_id = some s then [.forget user_id] else []) =
        some (w.perform s (.registry_remove user_id)).view := by
  have hlookup : (w.perform s (.registry_remove user_id)).lookup =
      if w.lookup user_id = some s then Function.update w.lookup user_id none else w.lookup := by
    funext v
    change (w.registry.remove w.alive user_id (some s)).lookup w.alive v = _
    rw [lookup_remove]
    change (if v = user_id ∧ w.lookup user_id = some s then none else w.lookup v) = _
    split_ifs with h hl hl
    · rw [h.1, Function.update_self]
    · exact absurd h.2 hl
    · rw [Function.update_of_ne fun hv => h ⟨hv, hl⟩]
    · rfl
  unfold Server.view
  rw [hlookup]
  split_ifs
  · rfl
  · rfl

/-- What a plain effect of the session `s` does to a session `t`: it adds to its posts and its
queue, and may start a routing of `s`. -/
structure Grown (e : Effect Stored) (s t : ρ) (ss ss' : ISession) : Prop where
  alive : ss'.alive = ss.alive
  run : ss'.run = ss.run
  stage : ss'.stage = ss.stage
  route : ss'.route = ss.route ∨ Routes e ∧ t = s ∧ ∃ request, ss'.route = some (.requested request)

theorem grown_modify {e : Effect Stored} {s' t : ρ} {f : ISession → ISession}
    (h : Grown e s s' (w.sessions s') (f (w.sessions s'))) :
    Grown e s t (w.sessions t) ((w.modify s' f).sessions t) := by
  by_cases hts : t = s'
  · subst hts
    simpa [Server.modify] using h
  · simp only [Server.modify, Function.update_of_ne hts]
    exact ⟨rfl, rfl, rfl, .inl rfl⟩

theorem perform_sessions {e : Effect Stored} (he : Plain e) (t : ρ) :
    Grown e s t (w.sessions t) ((w.perform s e).sessions t) := by
  cases e with
  | registry_insert user_id => exact he.elim
  | enqueue item => exact he.elim
  | push_text j =>
    simp only [Server.perform, Server.push]
    exact grown_modify ⟨rfl, rfl, rfl, .inl rfl⟩
  | relay target_id message =>
    simp only [Server.perform, Server.notify, Server.post]
    split
    · exact grown_modify ⟨rfl, rfl, rfl, .inl rfl⟩
    · exact ⟨rfl, rfl, rfl, .inl rfl⟩
  | route_message hdr payload =>
    simp only [Server.perform]
    exact grown_modify ⟨rfl, rfl, rfl, .inr ⟨trivial, rfl, _, rfl⟩⟩
  | route_text type j =>
    simp only [Server.perform]
    exact grown_modify ⟨rfl, rfl, rfl, .inr ⟨trivial, rfl, _, rfl⟩⟩
  | _ => exact ⟨rfl, rfl, rfl, .inl rfl⟩

theorem view_effect {e : Effect Stored} (he : Plain e) (hs : (w.sessions s).sending = none) :
    (net : Machine (Net UserId ρ Item) _).runFrom w.view (effect_moves s w e) =
      some (w.perform s e).view := by
  cases e with
  | registry_insert user_id => exact he.elim
  | enqueue item => exact he.elim
  | registry_remove user_id => exact view_registry_remove user_id
  | push_text j => exact congrArg some (view_push .notice).symm
  | relay target_id message => exact view_notify target_id
  | route_message hdr payload => exact congrArg some (view_route hs (by simp)).symm
  | route_text type j => exact congrArg some (view_route hs (by simp)).symm
  | _ => rfl

theorem view_effects {es : List (Effect Stored)} (hes : ∀ e ∈ es, Plain e)
    (hs : (w.sessions s).sending = none) :
    (net : Machine (Net UserId ρ Item) _).runFrom w.view (effects_moves s w es) =
      some (es.foldl (Server.perform s) w).view := by
  induction es generalizing w with
  | nil => rfl
  | cons e es ih =>
    have he := hes e List.mem_cons_self
    rw [effects_moves, Machine.runFrom_append, view_effect he hs, Option.bind_some]
    refine ih (fun e he => hes e (List.mem_cons_of_mem _ he)) ?_
    have hgrown : Grown e s s _ _ := perform_sessions (w := w) he s
    unfold ISession.sending at hs ⊢
    rcases hgrown.route with hroute | ⟨_, _, request, hroute⟩
    · rw [hroute]
      exact hs
    · rw [hroute]

/-- The messages that a flush enqueues. -/
theorem view_enqueues (es : List Stored) :
    ((es.map Effect.enqueue).foldl (Server.perform s) w).view =
      { w.view with
        queue := append_at w.view.queue s (es.map Entry.packet)
        puts := w.view.puts ++ (es.filterMap Entry.message?).map (w.user s, ·) } := by
  induction es generalizing w with
  | nil => simp [append_at]
  | cons e es ih =>
    rw [List.map_cons, List.foldl_cons, ih]
    have hview : (w.perform s (.enqueue e)).view = { w.view.push s e.packet with
        puts := w.puts ++ e.message?.toList.map (w.user s, ·) } := by
      rw [← view_push]
      simp only [Server.perform, Server.enqueue, message?_packet]
      rfl
    have huser : (w.perform s (.enqueue e)).user s = w.user s := by
      simp [Server.perform, Server.enqueue, Server.push, Server.modify, Server.user]
    rw [hview, huser]
    cases e with
    | message item => simp [Net.push, append_at, Server.view, Entry.message?]
    | notice =>
      simp [Net.push, append_at, Server.view]
      rfl

end View

/-! ## A segment of `run()` -/

theorem active_of_in_auth {run : AnyRun} (h : run.in_auth) : run.active := by
  cases run with
  | tcp r =>
    by_contra ha
    simp only [AnyRun.active, ne_eq, decide_not, Bool.not_eq_true', decide_eq_false_iff_not,
      not_not] at ha
    simp [AnyRun.in_auth, ha] at h
  | ws r =>
    by_contra ha
    simp only [AnyRun.active, ne_eq, decide_not, Bool.not_eq_true', decide_eq_false_iff_not,
      not_not] at ha
    simp [AnyRun.in_auth, ha] at h

/-- A session has a user and a stage that fit its `run()`, which keeps it alive. -/
structure ISession.Sane (ss : ISession) : Prop where
  alive : ss.run.active → ss.alive
  user_id : ss.run.in_auth → ss.run.user_id = 0
  fresh : ss.run.in_auth → ss.stage = .fresh
  not_fresh : ss.run.in_auth = false → ss.run.active → ss.stage ≠ .fresh
  routing : ss.route ≠ none → ss.stage ≠ .fresh

section Segment

variable {w w' : Server ρ} {s : ρ} {run : AnyRun} {ev : AnyEvent}
  {verify : Bytes → Option UserId}

theorem effects_moves_append (es es' : List (Effect Stored)) : effects_moves s w (es ++ es') =
    effects_moves s w es ++ effects_moves s (es.foldl (Server.perform s) w) es' := by
  induction es generalizing w with
  | nil => rfl
  | cons e es ih =>
    simp only [List.cons_append, effects_moves, List.foldl_cons, ih, List.append_assoc]

theorem effects_moves_enqueues (items : List Stored) :
    effects_moves s w (items.map .enqueue) = [] := by
  induction items generalizing w with
  | nil => rfl
  | cons item items ih => exact ih

theorem view_close {x : Net UserId ρ Item} (h : x.active s) :
    (net : Machine (Net UserId ρ Item) _).runFrom x (close_moves s run) =
      some { x with active := Function.update x.active s run.active } := by
  unfold close_moves
  rcases ha : run.active with _ | _
  · rfl
  · rw [if_pos rfl, ← h, Function.update_eq_self]
    rfl

/-- The next wait of `run()`. -/
theorem view_run (h : (w.sessions s).sending = none) :
    (w.modify s fun ss => { ss with run := run, route := none }).view =
      { w.view with
        owner := Function.update w.view.owner s run.user_id
        active := Function.update w.view.active s run.active } := by
  rw [view_modify rfl]
  have hsend : ISession.sending { w.sessions s with run := run, route := none } =
      w.view.sending s := h.symm
  simp only [hsend]
  simp [Server.view]

theorem view_run_same (h : (w.sessions s).sending = none)
    (hu : run.user_id = (w.sessions s).run.user_id) (ha : (w.sessions s).run.active) :
    (net : Machine (Net UserId ρ Item) _).runFrom w.view (close_moves s run) =
      some (w.modify s fun ss => { ss with run := run, route := none }).view := by
  rw [view_close ha, view_run h, hu]
  simp [Server.view]

theorem modify_modify (f g : ISession → ISession) :
    (w.modify s f).modify s g = w.modify s fun ss => g (f ss) := by
  simp [Server.modify]

theorem view_insert (h : (w.sessions s).sending = none) (hal : w.alive s)
    (hf : (w.sessions s).stage = .fresh) (ha : (w.sessions s).run.active) (ha' : run.active) :
    (net : Machine (Net UserId ρ Item) _).runFrom w.view [.join s run.user_id] =
      some ((w.modify s fun ss => { ss with run := run, route := none }).perform s
        (.registry_insert run.user_id)).view := by
  have hperform : (w.modify s fun ss => { ss with run := run, route := none }).perform s
      (.registry_insert run.user_id) =
      { w.modify s (fun ss => { ss with run := run, route := none, stage := .registered }) with
        registry := w.registry.insert run.user_id s } := by
    simp only [Server.perform, modify_modify]
    rfl
  have hview : ((w.modify s fun ss => { ss with run := run, route := none }).perform s
      (.registry_insert run.user_id)).view = w.view.join s run.user_id := by
    rw [hperform]
    rw [view_with_registry, view_modify rfl, alive_modify rfl, lookup_insert _ _ hal]
    have hsend : ISession.sending
        { w.sessions s with run := run, route := none, stage := .registered } =
        w.view.sending s := h.symm
    have hact : run.active = w.view.active s := ha'.trans ha.symm
    simp only [hsend, hact]
    simp [Server.view, Net.join]
    rfl
  rw [hview]
  have hfresh : w.view.stage s = .fresh := hf
  simp [net, store_forward.machine, store_forward.step, Machine.runFrom, hfresh]

/-- The state in which a flush starts. -/
theorem begin_flush {batch : List Stored} (hb : ev.batch = some batch) {w₀ : Server ρ}
    (h : w.begin_segment s run ev = some w₀) :
    batch = (w.offline (w.user s)).reverse ∧
      w₀ = { w.modify s (fun ss => { ss with
          run := run
          stage := .flushed
          route := none
          lost := ss.lost ++ (batch.dropWhile ss.run.takes).map Entry.packet }) with
        offline := Function.update w.offline (w.user s) [] } := by
  unfold Server.begin_segment at h
  simp only [hb] at h
  split at h
  · rename_i hbatch
    refine ⟨hbatch, ?_⟩
    rw [← Option.some.inj h]
    simp [Server.deleted, Server.modify]
  · simp at h

theorem begin_other (hb : ev.batch = none) {w₀ : Server ρ}
    (h : w.begin_segment s run ev = some w₀) :
    w₀ = w.modify s fun ss => { ss with run := run, route := none } := by
  unfold Server.begin_segment at h
  simp only [hb] at h
  exact (Option.some.inj h).symm

theorem view_flush {batch : List Stored} {w₀ : Server ρ} (hb : ev.batch = some batch)
    (h₀ : w.begin_segment s run ev = some w₀) (hs : (w.sessions s).sending = none)
    (hu : run.user_id = (w.sessions s).run.user_id) (ha : (w.sessions s).run.active)
    (hf : (w.sessions s).stage ≠ .fresh) :
    (net : Machine (Net UserId ρ Item) _).runFrom w.view
      (.flush s (batch.takeWhile (w.sessions s).run.takes).length :: close_moves s run) =
        some (((batch.takeWhile (w.sessions s).run.takes).map .enqueue).foldl
          (Server.perform s) w₀).view := by
  obtain ⟨hbatch, hw₀⟩ := begin_flush hb h₀
  have htake : batch.take (batch.takeWhile (w.sessions s).run.takes).length =
      batch.takeWhile (w.sessions s).run.takes :=
    (List.prefix_iff_eq_take.mp (List.takeWhile_prefix _)).symm
  have hdrop : batch.drop (batch.takeWhile (w.sessions s).run.takes).length =
      batch.dropWhile (w.sessions s).run.takes := by
    calc batch.drop (batch.takeWhile (w.sessions s).run.takes).length
      _ = (batch.takeWhile (w.sessions s).run.takes ++
          batch.dropWhile (w.sessions s).run.takes).drop
            (batch.takeWhile (w.sessions s).run.takes).length := by
          rw [List.takeWhile_append_dropWhile]
      _ = batch.dropWhile (w.sessions s).run.takes := List.drop_left
  have hstep : (net : Machine (Net UserId ρ Item) _).step w.view
      (.flush s (batch.takeWhile (w.sessions s).run.takes).length) =
        some (w.view.flush s (batch.takeWhile (w.sessions s).run.takes).length) :=
    if_pos ⟨hf, ha⟩
  have hactive : (w.view.flush s (batch.takeWhile (w.sessions s).run.takes).length).active s := ha
  have hsend : ∀ stage lost, ISession.sending { w.sessions s with
      run := run, stage := stage, route := none, lost := lost } = w.view.sending s :=
    fun _ _ => hs.symm
  have hview₀ : w₀.view = { w.view with
      stage := Function.update w.view.stage s .flushed
      active := Function.update w.view.active s run.active
      lost := append_at w.view.lost s
        ((batch.dropWhile (w.sessions s).run.takes).map Entry.packet)
      offline := Function.update w.view.offline (w.user s) [] } := by
    rw [hw₀]
    refine (view_with_offline _).trans ?_
    rw [view_modify rfl]
    simp only [hsend, hu]
    simp [Server.view, append_at]
  have huser : w₀.user s = w.user s := by
    rw [hw₀]
    simpa [Server.user, Server.modify] using hu
  have hqueue : (w.view.offline (w.view.owner s)).reverse = batch := hbatch.symm
  rw [Machine.runFrom, hstep, Option.bind_some, view_close hactive, view_enqueues, hview₀, huser]
  simp only [Net.flush, hqueue, htake, hdrop]
  rfl

theorem effects_sessions {es : List (Effect Stored)} (hes : ∀ e ∈ es, Plain e) (t : ρ) :
    let ss := (es.foldl (Server.perform s) w).sessions t
    ss.alive = (w.sessions t).alive ∧ ss.run = (w.sessions t).run ∧
      ss.stage = (w.sessions t).stage ∧
      (ss.route ≠ none → (w.sessions t).route ≠ none ∨ t = s ∧ ∃ e ∈ es, Routes e) := by
  induction es generalizing w with
  | nil => exact ⟨rfl, rfl, rfl, .inl⟩
  | cons e es ih =>
    have hgrown : Grown e s t _ _ := perform_sessions (w := w) (hes e List.mem_cons_self) t
    obtain ⟨halive, hrun, hstage, hroute⟩ := ih (w := w.perform s e)
      fun e he => hes e (List.mem_cons_of_mem _ he)
    refine ⟨halive.trans hgrown.alive, hrun.trans hgrown.run, hstage.trans hgrown.stage,
      fun hne => ?_⟩
    rcases hroute hne with hne | ⟨hts, e', he', hr⟩
    · rcases hgrown.route with hr | ⟨hr, hts, _⟩
      · exact .inl (hr ▸ hne)
      · exact .inr ⟨hts, e, List.mem_cons_self, hr⟩
    · exact .inr ⟨hts, e', List.mem_cons_of_mem _ he', hr⟩

/-- Effects that find every session sane leave it so, if a routing starts in a session that is
known. -/
theorem sane_effects {es : List (Effect Stored)} (hes : ∀ e ∈ es, Plain e)
    (hw : ∀ t, (w.sessions t).Sane)
    (hr : ∀ e ∈ es, Routes e → (w.sessions s).stage ≠ .fresh) (t : ρ) :
    ((es.foldl (Server.perform s) w).sessions t).Sane := by
  obtain ⟨halive, hrun, hstage, hroute⟩ := effects_sessions (w := w) (s := s) hes t
  refine ⟨?_, ?_, ?_, ?_, ?_⟩
  · rw [hrun, halive]
    exact (hw t).alive
  · rw [hrun]
    exact (hw t).user_id
  · rw [hrun, hstage]
    exact (hw t).fresh
  · rw [hrun, hstage]
    exact (hw t).not_fresh
  · intro hne
    rw [hstage]
    rcases hroute hne with hne | ⟨rfl, e, he, he'⟩
    · exact (hw t).routing hne
    · exact hr e he he'

theorem sane_modify {f : ISession → ISession} (hw : ∀ t, (w.sessions t).Sane)
    (hf : (f (w.sessions s)).Sane) (t : ρ) : ((w.modify s f).sessions t).Sane := by
  by_cases hts : t = s
  · subst hts
    simpa [Server.modify] using hf
  · simpa [Server.modify, hts] using hw t

theorem sane_enqueues (items : List Stored) (hw : ∀ t, (w.sessions t).Sane) (t : ρ) :
    (((items.map Effect.enqueue).foldl (Server.perform s) w).sessions t).Sane ∧
      (((items.map Effect.enqueue).foldl (Server.perform s) w).sessions t).sending =
        (w.sessions t).sending := by
  induction items generalizing w with
  | nil => exact ⟨hw t, rfl⟩
  | cons item items ih =>
    have hsane : ∀ t, ((w.perform s (.enqueue item)).sessions t).Sane := by
      simp only [Server.perform, Server.enqueue, Server.push]
      exact sane_modify hw
        ⟨(hw s).alive, (hw s).user_id, (hw s).fresh, (hw s).not_fresh, (hw s).routing⟩
    refine ⟨(ih hsane).1, (ih hsane).2.trans ?_⟩
    by_cases hts : t = s
    · subst hts
      simp [Server.perform, Server.enqueue, Server.push, Server.modify, ISession.sending]
    · simp [Server.perform, Server.enqueue, Server.push, Server.modify, hts]

/-- A segment of `run()` is a few moves of the net. -/
theorem view_resume (hw : ∀ t, (w.sessions t).Sane) (hs : (w.sessions s).sending = none)
    (h : w.resume verify s ev = some w') :
    (net : Machine (Net UserId ρ Item) _).runFrom w.view (resume_moves verify w s ev) =
      some w'.view ∧ ∀ t, (w'.sessions t).Sane := by
  obtain ⟨⟨run, effects⟩, hres, h⟩ := Option.bind_eq_some_iff.mp h
  obtain ⟨w₀, h₀, rfl⟩ := Option.map_eq_some_iff.mp h
  have hmoves : resume_moves verify w s ev = flush_moves s (w.sessions s).run ev ++
      close_moves s run ++ effects_moves s w₀ effects := by
    unfold resume_moves
    simp only [hres, h₀]
  rw [hmoves]
  cases segment_goes (hw s).user_id hres with
  | enter hin hb hin' hact hes =>
    obtain rfl := begin_other hb h₀
    have hflush : flush_moves s (w.sessions s).run ev = [] := by
      simp only [flush_moves, hb]
    have hclose : close_moves s run = [] := if_pos hact
    have hsane : ∀ t, (((w.modify s fun ss => { ss with run := run, route := none }).perform s
        (.registry_insert run.user_id)).sessions t).Sane := by
      simp only [Server.perform, modify_modify]
      refine sane_modify hw ⟨?_, ?_, ?_, ?_, ?_⟩
      · exact fun _ => (hw s).alive (active_of_in_auth hin)
      · simp [hin']
      · simp [hin']
      · simp
      · simp
    have hsend : (((w.modify s fun ss => { ss with run := run, route := none }).perform s
        (.registry_insert run.user_id)).sessions s).sending = none := by
      simp [Server.perform, Server.modify, ISession.sending]
    have hinsert := view_insert hs ((hw s).alive (active_of_in_auth hin)) ((hw s).fresh hin)
      (active_of_in_auth hin) hact
    rw [List.foldl_cons]
    refine ⟨?_, sane_effects (fun e he => (hes e he).1) hsane
      fun e he hr => absurd hr (hes e he).2⟩
    rw [hflush, hclose, List.nil_append, List.nil_append]
    refine (Machine.runFrom_append _ _ [Move.join s run.user_id] _).trans ?_
    rw [hinsert]
    exact view_effects (fun e he => (hes e he).1) hsend
  | @flush es batch hin hact hb hin' hu hes =>
    have hflush : flush_moves s (w.sessions s).run ev =
        [.flush s (batch.takeWhile (w.sessions s).run.takes).length] := by
      simp only [flush_moves, hb]
    have hsane₀ : ∀ t, (w₀.sessions t).Sane := by
      obtain ⟨_, rfl⟩ := begin_flush hb h₀
      dsimp only
      refine sane_modify hw ⟨?_, ?_, ?_, ?_, ?_⟩
      · exact fun _ => (hw s).alive hact
      · simp [hin']
      · simp [hin']
      · simp
      · simp
    have hsend₀ : (w₀.sessions s).sending = none := by
      obtain ⟨_, rfl⟩ := begin_flush hb h₀
      simp [Server.modify, ISession.sending]
    have hview := view_flush hb h₀ hs hu hact ((hw s).not_fresh hin hact)
    rw [List.foldl_append, effects_moves_append, effects_moves_enqueues, List.nil_append]
    refine ⟨?_, sane_effects (fun e he => (hes e he).1)
      (fun t => (sane_enqueues _ hsane₀ t).1) fun e he hr => absurd hr (hes e he).2⟩
    rw [Machine.runFrom_append, hflush, List.singleton_append, hview]
    exact view_effects (fun e he => (hes e he).1) ((sane_enqueues _ hsane₀ s).2.trans hsend₀)
  | go_on hact hb hu hin hin' hes hr =>
    obtain rfl := begin_other hb h₀
    have hflush : flush_moves s (w.sessions s).run ev = [] := by
      simp only [flush_moves, hb]
    have hsane :
        ∀ t, ((w.modify s fun ss => { ss with run := run, route := none }).sessions t).Sane := by
      refine sane_modify hw ⟨?_, ?_, ?_, ?_, ?_⟩
      · exact fun _ => (hw s).alive hact
      · exact fun h => hu.trans ((hw s).user_id (hin h))
      · exact fun h => (hw s).fresh (hin h)
      · exact fun h ha => (hw s).not_fresh (hin' h ha) hact
      · simp
    have hsend : ((w.modify s fun ss => { ss with run := run, route := none }).sessions s).sending =
        none := by
      simp [Server.modify, ISession.sending]
    rw [hflush]
    refine ⟨?_, sane_effects hes hsane fun e he hr' => ?_⟩
    · refine (Machine.runFrom_append _ _ _ _).trans ?_
      rw [List.nil_append, view_run_same hs hu hact]
      exact view_effects hes hsend
    · simp only [Server.modify, Function.update_self]
      refine (hw s).not_fresh ?_ hact
      rcases hauth : (w.sessions s).run.in_auth with _ | _
      · rfl
      · exact absurd hr' (hr hauth e he)

end Segment

/-! ## A routing -/

section Routing

variable {w w' : Server ρ} {s t : ρ} {item : Item} {receipts : Receipts} {member_id : UserId}
  {members : List UserId} {verify : Bytes → Option UserId}

/-- The net while a session is in the loop over the members. -/
def Server.sending (w : Server ρ) (s : ρ) (item : Item) (members : List UserId) :
    Net UserId ρ Item :=
  { w.view with sending := Function.update w.view.sending s (some (item, members)) }

theorem lookup_post (p : Packet UserId Item) : (w.post t p).lookup = w.lookup := lookup_modify rfl

theorem reply_post (p : Packet UserId Item) :
    (w.post t p).reply s receipts = w.reply s receipts := by
  have huser : (w.post t p).user s = w.user s := by
    by_cases hst : s = t
    · subst hst
      simp [Server.user, Server.post, Server.modify]
    · simp [Server.user, Server.post, Server.modify, hst]
  unfold Server.reply
  rw [huser, lookup_post]

theorem view_send_receipt : (w.send_receipt s item member_id receipts).view =
    w.view.reply s item member_id (w.reply s receipts) := by
  cases receipts with
  | none => rfl
  | posted =>
    simp only [Server.send_receipt, Server.reply]
    rcases w.lookup (w.user s) with _ | a
    · rfl
    · exact congrArg (fun x : Net UserId ρ Item =>
        { x with receipts := w.receipts ++ [(item, member_id)] }) (view_post _)
  | pushed =>
    exact congrArg (fun x : Net UserId ρ Item =>
      { x with receipts := w.receipts ++ [(item, member_id)] }) (view_push _)

variable (w s t item receipts member_id) in
theorem view_deliver : (w.deliver s item receipts member_id t).view =
    { (w.view.post t (.message item)).reply s item member_id (w.reply s receipts) with
      routed := w.routed ++ [(item, member_id)] } := by
  rw [← reply_post (t := t) (.message item), ← view_post, ← view_send_receipt]
  rfl

theorem view_delivered (ht : w.lookup member_id = some t) :
    (net : Machine (Net UserId ρ Item) _).step (w.sending s item (member_id :: members))
      (.deliver s (w.reply s receipts)) =
        some ((w.deliver s item receipts member_id t).sending s item members) := by
  have hstep : (net : Machine (Net UserId ρ Item) _).step (w.sending s item (member_id :: members))
      (.deliver s (w.reply s receipts)) = some
        ((((w.sending s item (member_id :: members)).post t (.message item)).reply s item member_id
          (w.reply s receipts)).served s item member_id members) := by
    simp [net, store_forward.machine, store_forward.step, Server.sending, Server.view, ht]
  rw [hstep]
  unfold Server.sending
  rw [view_deliver]
  cases w.reply s receipts <;> simp [Net.served, Net.reply, Net.post, Net.push, Server.view]

/-- The loop delivers to the members up to its end, or up to the first who is not online. -/
theorem view_visit : (net : Machine (Net UserId ρ Item) _).runFrom (w.sending s item members)
    (visit_moves s item receipts w members) = some (w.visit s item receipts members).view := by
  induction members generalizing w with
  | nil =>
    have hend : (net : Machine (Net UserId ρ Item) _).step (w.sending s item []) (.end_send s) =
        some (w.modify s fun ss => { ss with route := none }).view := by
      rw [view_modify rfl]
      simp [net, store_forward.machine, store_forward.step, Server.sending, Server.view,
        ISession.sending]
    simp only [visit_moves, Server.visit, Machine.runFrom, hend, Option.bind_some]
  | cons member_id rest ih =>
    rcases ht : w.lookup member_id with _ | t
    · simp only [visit_moves, Server.visit, ht]
      rw [view_modify rfl]
      simp [Machine.runFrom, Server.sending, Server.view, ISession.sending]
    · simp only [visit_moves, Server.visit, ht, Machine.runFrom, view_delivered ht,
        Option.bind_some]
      exact ih

variable (w s t item receipts member_id) in
/-- A delivery only adds to posts and to a queue. -/
theorem deliver_sessions (t' : ρ) : ∃ posts queue,
    (w.deliver s item receipts member_id t).sessions t' =
      { w.sessions t' with posts := posts, queue := queue } := by
  have hmodify : ∀ (v : Server ρ) (a : ρ) (f : ISession → ISession),
      (∀ ss, ∃ posts queue, f ss = { ss with posts := posts, queue := queue }) →
      (∃ posts queue, v.sessions t' = { w.sessions t' with posts := posts, queue := queue }) →
      ∃ posts queue, (v.modify a f).sessions t' =
        { w.sessions t' with posts := posts, queue := queue } := by
    intro v a f hf hv
    by_cases hta : t' = a
    · subst hta
      obtain ⟨posts, queue, hss⟩ := hv
      obtain ⟨posts', queue', hf⟩ := hf (v.sessions t')
      refine ⟨posts', queue', ?_⟩
      simp only [Server.modify, Function.update_self]
      rw [hf, hss]
    · simpa [Server.modify, hta] using hv
  have hpost : ∃ posts queue, (w.post t (.message item)).sessions t' =
      { w.sessions t' with posts := posts, queue := queue } :=
    hmodify w t _ (fun _ => ⟨_, _, rfl⟩) ⟨_, _, rfl⟩
  cases receipts with
  | none => exact hpost
  | posted =>
    simp only [Server.deliver, Server.send_receipt]
    split
    · exact hmodify _ _ _ (fun _ => ⟨_, _, rfl⟩) hpost
    · exact hpost
  | pushed => exact hmodify _ _ _ (fun _ => ⟨_, _, rfl⟩) hpost

theorem sane_visit (hw : ∀ t, (w.sessions t).Sane) (hs : (w.sessions s).stage ≠ .fresh) (t : ρ) :
    ((w.visit s item receipts members).sessions t).Sane := by
  induction members generalizing w with
  | nil =>
    exact sane_modify hw
      ⟨(hw s).alive, (hw s).user_id, (hw s).fresh, (hw s).not_fresh, fun h => absurd rfl h⟩ t
  | cons member_id rest ih =>
    rcases ht : w.lookup member_id with _ | t'
    · simp only [Server.visit, ht]
      exact sane_modify hw
        ⟨(hw s).alive, (hw s).user_id, (hw s).fresh, (hw s).not_fresh, fun _ => hs⟩ t
    · simp only [Server.visit, ht]
      refine ih (fun t => ?_) ?_
      · obtain ⟨posts, queue, hss⟩ := deliver_sessions w s t' item receipts member_id t
        rw [hss]
        exact ⟨(hw t).alive, (hw t).user_id, (hw t).fresh, (hw t).not_fresh, (hw t).routing⟩
      · obtain ⟨posts, queue, hss⟩ := deliver_sessions w s t' item receipts member_id s
        rw [hss]
        exact hs

/-- The plan names the sender, and nobody twice. -/
theorem plan_spec {request : Request} {user_id : UserId} {answers : Answers} {plan : Plan}
    (h : request.plan user_id answers = some (some plan)) :
    plan.message.sender_id = user_id ∧ plan.members.Nodup := by
  have hnodup : (answers.members.filter (· ≠ user_id)).Nodup := answers.nodup.filter _
  cases request with
  | tcp hdr payload =>
    simp only [Request.plan] at h
    split at h <;> cases h
    · exact ⟨rfl, hnodup⟩
    · exact ⟨rfl, List.nodup_singleton _⟩
  | ws type j =>
    simp only [Request.plan] at h
    split_ifs at h
    · obtain ⟨target, _, htarget⟩ := Option.map_eq_some_iff.mp h
      obtain ⟨⟨conv_id, content⟩, _, hmember⟩ := Option.bind_eq_some_iff.mp htarget
      obtain ⟨recipient_id, _, rfl⟩ := Option.map_eq_some_iff.mp hmember
      exact ⟨rfl, List.nodup_singleton _⟩
    · obtain ⟨target, _, htarget⟩ := Option.map_eq_some_iff.mp h
      obtain ⟨⟨group_id, content⟩, _, rfl⟩ := Option.map_eq_some_iff.mp htarget
      exact ⟨rfl, hnodup⟩
    · simp at h

/-- When `run()` goes on after a routing, nothing moves. -/
theorem returned_moves (w : Server ρ) (s : ρ) :
    resume_moves verify w s (w.sessions s).run.returned = [] := by
  unfold resume_moves
  rcases (w.sessions s).run with r | r
  · rcases r with ⟨await, user_id⟩
    cases await <;> rfl
  · rcases r with ⟨await, user_id⟩
    cases await <;> rfl

theorem view_settle (hw : ∀ t, (w.sessions t).Sane) (h : w.settle verify s = some w') :
    w'.view = w.view ∧ ∀ t, (w'.sessions t).Sane := by
  unfold Server.settle at h
  split at h
  · rename_i hroute
    have hs : (w.sessions s).sending = none := by
      unfold ISession.sending
      rw [hroute]
    obtain ⟨hview, hsane⟩ := view_resume hw hs h
    rw [returned_moves] at hview
    exact ⟨(Option.some.inj hview).symm, hsane⟩
  · rw [← Option.some.inj h]
    exact ⟨rfl, hw⟩

theorem view_fan_out {answers : Answers} (hw : ∀ t, (w.sessions t).Sane)
    (h : ((w.start_routing s answers).bind fun w => w.settle verify s) = some w') :
    (net : Machine (Net UserId ρ Item) _).runFrom w.view (routing_moves w s answers) =
        some w'.view ∧
      ∀ t, (w'.sessions t).Sane := by
  obtain ⟨w₁, h₁, h⟩ := Option.bind_eq_some_iff.mp h
  unfold Server.start_routing at h₁
  split at h₁
  · rename_i request hroute
    have hs : (w.sessions s).sending = none := by
      unfold ISession.sending
      rw [hroute]
    have hstage : (w.sessions s).stage ≠ .fresh := (hw s).routing (by simp [hroute])
    simp only [routing_moves, hroute]
    obtain ⟨plan, hplan, rfl⟩ := Option.map_eq_some_iff.mp h₁
    cases plan with
    | none =>
      simp only [hplan]
      obtain ⟨hview, hsane⟩ := view_settle (sane_modify hw
        ⟨(hw s).alive, (hw s).user_id, (hw s).fresh, (hw s).not_fresh, fun h => absurd rfl h⟩) h
      rw [hview, view_route hs (by simp)]
      exact ⟨rfl, hsane⟩
    | some plan =>
      simp only [hplan]
      obtain ⟨hsender, hnodup⟩ := plan_spec hplan
      obtain ⟨hview, hsane⟩ := view_settle (sane_visit (w := { w with next_no := w.next_no + 1 })
        hw hstage) h
      have hstart : (net : Machine (Net UserId ρ Item) _).step w.view
          (.start_send s ⟨w.next_no, plan.message⟩ plan.members) = some (Server.sending
            { w with next_no := w.next_no + 1 } s ⟨w.next_no, plan.message⟩ plan.members) :=
        if_pos ⟨hstage, hs, rfl, hsender, hnodup⟩
      rw [Machine.runFrom, hstart, Option.bind_some, view_visit, hview]
      exact ⟨rfl, hsane⟩
  · simp at h₁

theorem view_lpushed (hw : ∀ t, (w.sessions t).Sane)
    (h : ((w.go_on_routing s).bind fun w => w.settle verify s) = some w') :
    (net : Machine (Net UserId ρ Item) _).runFrom w.view (lpushed_moves w s) = some w'.view ∧
      ∀ t, (w'.sessions t).Sane := by
  obtain ⟨w₁, h₁, h⟩ := Option.bind_eq_some_iff.mp h
  unfold Server.go_on_routing at h₁
  split at h₁
  · rename_i item member_id rest receipts hroute
    have hs : w.view.sending s = some (item, member_id :: rest) := by
      change (w.sessions s).sending = _
      unfold ISession.sending
      rw [hroute]
    have hstage : (w.sessions s).stage ≠ .fresh := (hw s).routing (by simp [hroute])
    simp only [lpushed_moves, hroute]
    obtain rfl := Option.some.inj h₁
    obtain ⟨hview, hsane⟩ := view_settle (sane_visit (w := w.lpush item member_id) hw hstage) h
    have hstore : (net : Machine (Net UserId ρ Item) _).step w.view (.store s) =
        some ((w.lpush item member_id).sending s item rest) := by
      simp only [net, store_forward.machine, store_forward.step, hs]
      rfl
    rw [Machine.runFrom, hstore, Option.bind_some, view_visit, hview]
    exact ⟨rfl, hsane⟩
  · simp at h₁

end Routing

/-! ## The strand of a session -/

section Strand

variable {w w' : Server ρ} {s : ρ} {q : WriteQueue (Packet UserId Item)}

theorem view_taken {p : Packet UserId Item} {rest : List (Packet UserId Item)}
    (hp : (w.sessions s).posts = p :: rest) :
    (net : Machine (Net UserId ρ Item) _).runFrom w.view [.take s] =
      some ((w.modify s fun ss => { ss with posts := rest }).enqueue s p).view := by
  have hposts : w.view.posts s = p :: rest := hp
  have hview : ((w.modify s fun ss => { ss with posts := rest }).push s p).view =
      { w.view with
        posts := Function.update w.view.posts s rest
        queue := append_at w.view.queue s [p] } := by
    rw [view_push, view_modify rfl]
    simp [Net.push, append_at, Server.view, ISession.sending]
  have huser : (w.modify s fun ss => { ss with posts := rest }).user s = w.user s := by
    simp [Server.user, Server.modify]
  have henqueue : ((w.modify s fun ss => { ss with posts := rest }).enqueue s p).view =
      w.view.take s p rest := by
    unfold Server.enqueue
    rw [huser]
    exact congrArg (fun x : Net UserId ρ Item =>
      { x with puts := w.puts ++ p.message?.toList.map (w.user s, ·) }) hview
  rw [henqueue]
  simp [Machine.runFrom, net, store_forward.machine, store_forward.step, hposts]

theorem view_run_post {p : Packet UserId Item} {rest : List (Packet UserId Item)}
    (hp : (w.sessions s).posts = p :: rest) :
    (net : Machine (Net UserId ρ Item) _).runFrom w.view (run_post_moves w s) =
      some (w.run_post s p rest).view := by
  simp only [run_post_moves, hp, Server.run_post]
  split_ifs
  · exact view_taken hp
  · rfl

/-- The next frame of the queue is taken up. -/
theorem take_up {x : Net UserId ρ Item} (hf : x.in_flight s = none) :
    (net : Machine (Net UserId ρ Item) _).runFrom x (if x.queue s = [] then [] else [.next s]) =
      some { x with
        queue := Function.update x.queue s (x.queue s).tail
        in_flight := Function.update x.in_flight s (x.queue s).head? } := by
  rcases hq : x.queue s with _ | ⟨p, ps⟩
  · have hqueue : Function.update x.queue s [] = x.queue := by
      rw [← hq, Function.update_eq_self]
    have hnone : Function.update x.in_flight s none = x.in_flight := by
      rw [← hf, Function.update_eq_self]
    simp only [List.tail_nil, List.head?_nil, hqueue, hnone]
    rfl
  · simp [Machine.runFrom, net, store_forward.machine, store_forward.step, hf, hq, Net.next]

theorem view_start (hq : (w.sessions s).queue.start = some q) :
    (net : Machine (Net UserId ρ Item) _).runFrom w.view (next_moves w s) =
      some (w.modify s fun ss => { ss with queue := q }).view := by
  obtain ⟨_, hnone, rfl⟩ := start_eq_some hq
  refine (take_up (x := w.view) (s := s) hnone).trans ?_
  rw [view_modify rfl]
  simp [Server.view, ISession.sending]

theorem view_written (hq : (w.sessions s).queue.written = some q) :
    (net : Machine (Net UserId ρ Item) _).runFrom w.view (.wrote s :: next_moves w s) =
      some (w.modify s fun ss =>
        { ss with queue := q, written := ss.written ++ ss.queue.in_flight.toList }).view := by
  obtain ⟨⟨p, hp⟩, rfl⟩ := written_eq_some hq
  have hflight : w.view.in_flight s = some p := hp
  have hwrote : (net : Machine (Net UserId ρ Item) _).step w.view (.wrote s) =
      some (w.view.wrote s p) := by
    simp [net, store_forward.machine, store_forward.step, hflight]
  rw [Machine.runFrom, hwrote, Option.bind_some]
  refine (take_up (x := w.view.wrote s p) (s := s) (by simp [Net.wrote])).trans ?_
  rw [view_modify rfl]
  simp [Server.view, Net.wrote, append_at, ISession.sending, hp]

theorem view_failed (hq : (w.sessions s).queue.failed = some q) :
    (net : Machine (Net UserId ρ Item) _).runFrom w.view [.fail s] =
      some (w.modify s fun ss =>
        { ss with queue := q, lost := ss.lost ++ ss.queue.in_flight.toList }).view := by
  obtain ⟨⟨p, hp⟩, hnone, hqueue⟩ := failed_eq_some hq
  have hflight : w.view.in_flight s = some p := hp
  rw [view_modify rfl]
  simp only [Machine.runFrom, net, store_forward.machine, store_forward.step, hflight,
    Option.map_some, Option.bind_some]
  simp [Server.view, Net.fail, append_at, ISession.sending, hp, hnone, hqueue]

theorem lookup_destroy (hx : Sound w.view) :
    (w.modify s fun ss => { ss with alive := false }).lookup =
      if w.lookup (w.user s) = some s then Function.update w.lookup (w.user s) none
      else w.lookup := by
  have halive : ∀ t, (w.modify s fun ss => { ss with alive := false }).alive t =
      if t = s then false else w.alive t := by
    intro t
    by_cases hts : t = s <;> simp [Server.alive, Server.modify, hts]
  funext v
  have hlookup : (w.modify s fun ss => { ss with alive := false }).lookup v =
      if w.lookup v = some s then none else w.lookup v := by
    unfold Server.lookup SessionRegistry.lookup
    change Option.filter _ (w.registry.map v) = _
    rcases w.registry.map v with _ | t
    · simp
    · by_cases hts : t = s <;> simp [Option.filter, halive, hts]
  rw [hlookup]
  by_cases hv : w.lookup v = some s
  · obtain rfl : w.user s = v := hx.owner_eq v s hv
    simp [hv]
  · rw [if_neg hv]
    split_ifs with hs
    · exact (Function.update_of_ne (fun h : v = w.user s => hv (h ▸ hs)) _ _).symm
    · rfl

theorem view_destroy (hx : Sound w.view) :
    (net : Machine (Net UserId ρ Item) _).runFrom w.view
      (if w.lookup (w.user s) = some s then [.forget (w.user s)] else []) =
        some (w.modify s fun ss => { ss with alive := false }).view := by
  rw [view_modify_lookup, lookup_destroy hx]
  split_ifs
  · simp [Machine.runFrom, net, store_forward.machine, store_forward.step, Server.view,
      ISession.sending]
  · simp [Machine.runFrom, Server.view, ISession.sending]

end Strand

/-! ## The refinement -/

/-- The invariant of the server: the net is sound, and every session sane. -/
structure Fit (w : Server ρ) : Prop where
  sound : Sound w.view
  sane : ∀ t, (w.sessions t).Sane

section Refinement

variable {w w' : Server ρ} {l : Label ρ} {verify : Bytes → Option UserId}
  {transport : ρ → Transport}

theorem sane_notify (hw : ∀ t, (w.sessions t).Sane) (user_id : UserId) (t : ρ) :
    ((w.notify user_id).sessions t).Sane := by
  unfold Server.notify
  split
  · exact sane_modify hw
      ⟨(hw _).alive, (hw _).user_id, (hw _).fresh, (hw _).not_fresh, (hw _).routing⟩ t
  · exact hw t

theorem sane_notify_all (hw : ∀ t, (w.sessions t).Sane) (members : List UserId) (t : ρ) :
    ((w.notify_all members).sessions t).Sane := by
  induction members generalizing w with
  | nil => exact hw t
  | cons member_id rest ih =>
    rcases ht : w.lookup member_id with _ | a
    · simp only [Server.notify_all, ht]
      exact hw t
    · simp only [Server.notify_all, ht]
      refine ih (sane_modify hw ?_)
      exact ⟨(hw _).alive, (hw _).user_id, (hw _).fresh, (hw _).not_fresh, (hw _).routing⟩

/-- A process that has ended takes no step. -/
theorem step_eq_some :
    w.step verify l = some w' ↔ w.running ∧ w.act verify l = some w' := by
  unfold Server.step
  split_ifs with hr
  · simp [hr]
  · simp [hr]

/-- Each step of the server is a few moves of the net. -/
theorem step_refines (hw : Fit w) (h : w.step verify l = some w') :
    (net : Machine (Net UserId ρ Item) _).runFrom w.view (moves verify w l) = some w'.view ∧
      ∀ t, (w'.sessions t).Sane := by
  have hkeep : ∀ {s : ρ} {posts queue written lost}, ISession.Sane
      { w.sessions s with posts := posts, queue := queue, written := written, lost := lost } :=
    fun {s} => ⟨(hw.sane s).alive, (hw.sane s).user_id, (hw.sane s).fresh, (hw.sane s).not_fresh,
      (hw.sane s).routing⟩
  replace h := (step_eq_some.mp h).2
  cases l with
  | resume s ev =>
    simp only [Server.act] at h
    split_ifs at h with hs
    exact view_resume hw.sane hs.1 h
  | fan_out s answers => exact view_fan_out hw.sane h
  | lpushed s => exact view_lpushed hw.sane h
  | notify user_id =>
    obtain rfl := Option.some.inj h
    exact ⟨view_notify user_id, sane_notify hw.sane user_id⟩
  | delete_message members =>
    obtain rfl := Option.some.inj h
    exact ⟨view_notify_all members, sane_notify_all hw.sane members⟩
  | notice_lpushed k =>
    obtain ⟨⟨member_id, rest⟩, hk, rfl⟩ := Option.map_eq_some_iff.mp h
    exact ⟨view_notice_lpushed hk, sane_notify_all (w := w.lpush_notice k member_id) hw.sane rest⟩
  | run_post s =>
    simp only [Server.act] at h
    split at h
    · simp at h
    · rename_i p rest hp
      obtain rfl := Option.some.inj h
      refine ⟨view_run_post hp, ?_⟩
      unfold Server.run_post
      split_ifs
      · simp only [Server.enqueue, Server.push, modify_modify]
        exact sane_modify hw.sane hkeep
      · exact hw.sane
  | start s =>
    obtain ⟨q, hq, rfl⟩ := Option.map_eq_some_iff.mp h
    exact ⟨view_start hq, sane_modify hw.sane hkeep⟩
  | written s =>
    obtain ⟨q, hq, rfl⟩ := Option.map_eq_some_iff.mp h
    exact ⟨view_written hq, sane_modify hw.sane hkeep⟩
  | failed s =>
    obtain ⟨q, hq, rfl⟩ := Option.map_eq_some_iff.mp h
    exact ⟨view_failed hq, sane_modify hw.sane hkeep⟩
  | destroy s =>
    simp only [Server.act] at h
    split_ifs at h with hd
    obtain rfl := Option.some.inj h
    refine ⟨view_destroy hw.sound, sane_modify hw.sane ?_⟩
    exact ⟨fun ha => absurd hd.2.1 (by simp [ha]), (hw.sane s).user_id, (hw.sane s).fresh,
      (hw.sane s).not_fresh, (hw.sane s).routing⟩

theorem fit_step (hw : Fit w) (h : w.step verify l = some w') : Fit w' := by
  obtain ⟨hview, hsane⟩ := step_refines hw h
  exact ⟨Machine.runFrom_invariant (fun _ _ _ => sound_step) hw.sound hview, hsane⟩

theorem user_id_start (k : Transport) : (AnyRun.start k).user_id = 0 := by
  cases k <;> rfl

theorem active_start (k : Transport) : (AnyRun.start k).active := by
  cases k <;> rfl

theorem in_auth_start (k : Transport) : (AnyRun.start k).in_auth := by
  cases k <;> rfl

theorem view_initial : (chat_server verify transport).start.view =
    (net : Machine (Net UserId ρ Item) _).start := by
  simp only [chat_server, Server.view, ISession.start, user_id_start, active_start]
  rfl

theorem fit_start : Fit (chat_server verify transport).start := by
  refine ⟨?_, fun t => ?_⟩
  · rw [view_initial]
    exact sound_start 0
  · refine ⟨fun _ => rfl, fun _ => user_id_start _, fun _ => rfl, ?_, fun h => absurd rfl h⟩
    intro hin
    have hstart := in_auth_start (transport t)
    change (AnyRun.start (transport t)).in_auth = false at hin
    rw [hin] at hstart
    exact absurd hstart (by decide)

/-- Every run of the server is a run of the net. When its steps meet a condition under which
their moves meet another, the run of the net meets that. -/
theorem server_refines_net {ok : Server ρ → Label ρ → Prop}
    {ok' : Net UserId ρ Item → Move UserId ρ Item → Prop}
    (hok : ∀ w l w', Fit w → ok w l → Server.step verify w l = some w' →
      (net : Machine (Net UserId ρ Item) _).MeetsFrom ok' w.view (moves verify w l))
    {ls : List (Label ρ)} (hm : (chat_server verify transport).Meets ok ls)
    (hr : (chat_server verify transport).run ls = some w) :
    ∃ ms, (net : Machine (Net UserId ρ Item) _).run ms = some w.view ∧
      (net : Machine (Net UserId ρ Item) _).Meets ok' ms :=
  Machine.simulation view_initial fit_start (fun _ _ _ => fit_step)
    (fun _ _ _ hw h => (step_refines hw h).1) hok hm hr

end Refinement

end loomic.server
