-- Which messages the server loses, and which it leaves in the offline queue of
-- a user who is online: the flush, the posts, the writes and the `LPUSH` of a
-- routing, each in turn.
import Loomic.Lib.StoreForwardLaws
import Loomic.RoutingLoop

open loomic.frame loomic.routing loomic.session_run machines store_forward

namespace loomic.server

variable {ρ : Type} [DecidableEq ρ]

/-! ## Runs of two sessions -/

/-- The token of a user is the byte of his number. -/
def verify_byte : Bytes → Option UserId
  | [n] => some n.toUInt64
  | _ => none

/-- Two TCP connections. -/
abbrev two_sessions : Machine (Server (Fin 2)) (Label (Fin 2)) :=
  chat_server verify_byte fun _ => .tcp

/-- The connection of user 5. -/
def conn_5 : Fin 2 := 0

/-- The connection of user 7. -/
def conn_7 : Fin 2 := 1

/-- A session takes an AUTH frame, up to its flush. -/
def log_in (s : Fin 2) (token : UInt8) : List (Label (Fin 2)) :=
  [.resume s (.tcp (.header { payload_len := 1, msg_type := MsgType.AUTH.byte } true)),
    .resume s (.tcp (.payload [token] true)), .resume s (.tcp (.replied 0)),
    .resume s (.tcp .written)]

def flush (s : Fin 2) (batch : List Stored) : Label (Fin 2) := .resume s (.tcp (.frames batch))

/-- A session takes a CHAT frame without a text, and routes it. -/
def send (s : Fin 2) (recipient_id : UserId) : List (Label (Fin 2)) :=
  [.resume s (.tcp (.header { msg_type := MsgType.CHAT.byte, recipient_id := recipient_id } true)),
    .fan_out s { members := [], nodup := .nil, other_member := none, msg_id := 1, ts_ms := 0 }]

def sent (no : Nat) (user_id recipient_id : UserId) : Item where
  no := no
  message := direct_message user_id recipient_id (min user_id recipient_id) 1 0 []

/-! ## No message is lost -/

/-- What a session has still to write. -/
def ISession.pending (ss : ISession) : List (Packet UserId Item) :=
  ss.posts ++ ss.queue.write_queue ++ ss.queue.in_flight.toList

namespace Server

variable (w : Server ρ)

/-- A message is safe for a user in his offline queue, at a session of his that has it still to
write and whose `run()` is active, or once such a session has written it. No `run()` is active
when the process has ended. -/
def Safe (item : Item) (user_id : UserId) : Prop :=
  .message item ∈ w.offline user_id ∨ ∃ s, w.user s = user_id ∧
    (w.running ∧ (w.sessions s).run.active ∧ .message item ∈ (w.sessions s).pending ∨
      .message item ∈ (w.sessions s).written)

def NoMessageLost : Prop := ∀ item user_id, (item, user_id) ∈ w.routed → w.Safe item user_id

/-- A step that loses no message: whom a loop finds in the registry has a session whose `run()`
is active; a flush and a posted closure have only messages that `enqueue` takes; `run()` does
not end while the session has a message to write; and no write of a message fails. -/
def KeepsMessages (verify : Bytes → Option UserId) (l : Label ρ) : Prop :=
  (∀ loop ∈ w.loop l, ∀ v ∈ w.online loop.members, ∀ t ∈ w.lookup v,
    (w.sessions t).run.active = true) ∧
  match l with
  | .resume s ev =>
    (∀ batch ∈ ev.batch, ∀ e ∈ batch, (w.sessions s).run.takes e = true) ∧
    ∀ seg ∈ (w.sessions s).run.resume verify ev, seg.1.active = false →
      ∀ p ∈ (w.sessions s).pending, p.message? = none
  | .run_post s => ∀ p ∈ (w.sessions s).posts.head?, p.message?.all (w.sessions s).run.dumps = true
  | .failed s => ∀ p ∈ (w.sessions s).queue.in_flight, p.message? = none
  | _ => True

instance (verify : Bytes → Option UserId) : ∀ l, Decidable (w.KeepsMessages verify l)
  | .resume _ _ => inferInstanceAs (Decidable (_ ∧ _ ∧ _))
  | .run_post _ | .failed _ => inferInstanceAs (Decidable (_ ∧ _))
  | .fan_out _ _ | .lpushed _ | .notify _ | .delete_message _ | .notice_lpushed _ | .start _
  | .written _ | .destroy _ => inferInstanceAs (Decidable (_ ∧ True))

end Server

section Lost

variable {w w' : Server ρ} {verify : Bytes → Option UserId} {transport : ρ → Transport}

/-- The flush takes all messages, so `run()` goes on. -/
theorem active_of_flush {r r' : AnyRun} {ev : AnyEvent} {effects : List (Effect Stored)}
    {batch : List Stored} (h : r.resume verify ev = some (r', effects))
    (hb : ev.batch = some batch) (hall : ∀ e ∈ batch, r.takes e) : r'.active := by
  rcases r with ⟨await, user_id⟩ | ⟨await, user_id⟩
  · cases ev with
    | tcp ev =>
      cases ev with
      | frames frames =>
        cases await with
        | flush_offline_queue =>
          obtain ⟨rfl, _⟩ := Prod.mk.inj (Option.some.inj h)
          rfl
        | _ => simp [AnyRun.resume, Session.resume] at h
      | _ => simp [AnyEvent.batch] at hb
    | ws ev => simp [AnyRun.resume] at h
  · cases ev with
    | tcp ev => simp [AnyRun.resume] at h
    | ws ev =>
      cases ev with
      | frames frames =>
        obtain rfl : frames = batch := Option.some.inj hb
        cases await with
        | flush_offline_queue =>
          have htakes : frames.all (AnyRun.takes (.ws ⟨.flush_offline_queue, user_id⟩)) :=
            List.all_eq_true.mpr hall
          simp only [AnyRun.resume, WebSocketSession.resume, WebSocketSession.flush, if_pos htakes,
            Option.map_some, Option.some.injEq, Prod.mk.injEq] at h
          rw [← h.1]
          rfl
        | _ => simp [AnyRun.resume, WebSocketSession.resume] at h
      | _ => simp [AnyEvent.batch] at hb

theorem visit_careful {s : ρ} {item : Item} {receipts : Receipts} {members : List UserId}
    (h : ∀ v ∈ w.online members, ∀ t ∈ w.lookup v, (w.sessions t).run.active = true) :
    (net : Machine (Net UserId ρ Item) _).MeetsFrom Careful (w.sending s item members)
      (visit_moves s item receipts w members) := by
  refine visit_meets (P := fun w members => ∀ v ∈ w.online members, ∀ t ∈ w.lookup v,
    (w.sessions t).run.active = true) ?_ (fun _ => trivial) h
  intro w member_id rest t hact ht
  rw [online_cons ht] at hact
  refine ⟨fun t' ht' => ?_, fun v hv t' ht' => ?_⟩
  · have hsend : (w.sending s item (member_id :: rest)).sending s =
        some (item, member_id :: rest) := by simp [Server.sending]
    exact hact member_id List.mem_cons_self t' ((target_eq hsend).mp ht')
  · rw [online_deliver] at hv
    rw [lookup_deliver] at ht'
    rw [run_deliver]
    exact hact v (List.mem_cons_of_mem _ hv) t' ht'

omit [DecidableEq ρ] in
theorem careful_of_aside {m : Move UserId ρ Item} (hm : Aside m) (x : Net UserId ρ Item) :
    Careful x m := by
  cases m with
  | join | forget | post_notice | push_notice => trivial
  | _ => exact False.elim hm

/-- Such a step is a few careful moves. -/
theorem careful_of_keeps_messages {l : Label ρ} (hok : w.KeepsMessages verify l)
    (h : w.step verify l = some w') :
    (net : Machine (Net UserId ρ Item) _).MeetsFrom Careful w.view (moves verify w l) := by
  obtain ⟨hloop, hok⟩ := hok
  cases l with
  | resume s ev =>
    obtain ⟨htakes, hend⟩ := hok
    refine resume_meets (fun _ => careful_of_aside) ?_ ?_ h
    · intro batch hb heq
      rw [List.takeWhile_eq_self_iff.mpr (htakes batch hb), heq, List.length_reverse]
      exact Nat.le_refl _
    · intro x seg hseg hact hx
      rcases hb : ev.batch with _ | batch
      · obtain rfl : w.view = x := by simpa [flush_moves, hb, Machine.runFrom] using hx
        exact hend seg hseg hact
      · rw [active_of_flush hseg hb (htakes batch hb)] at hact
        exact absurd hact (by simp)
  | fan_out s answers => exact fan_out_meets fun loop hl => ⟨trivial, visit_careful (hloop loop hl)⟩
  | lpushed s =>
    refine lpushed_meets fun item member_id rest receipts hroute => ⟨trivial, visit_careful ?_⟩
    exact hloop ⟨s, item, rest, receipts⟩ (by simp [Server.loop, hroute])
  | notify user_id => exact notify_meets (fun _ => careful_of_aside) _
  | delete_message members => exact notify_all_meets (fun _ => careful_of_aside) members _
  | notice_lpushed k => exact notice_lpushed_meets (fun _ => careful_of_aside) fun _ _ => trivial
  | destroy s => exact destroy_meets (fun _ => careful_of_aside) _
  | run_post s => exact run_post_meets trivial
  | start s => exact Machine.meetsFrom_of_forall (by simp [moves, next_moves, Careful]) _
  | written s => exact Machine.meetsFrom_of_forall (by simp [moves, next_moves, Careful]) _
  | failed s => exact ⟨hok, fun _ _ => trivial⟩

/-! ## The process goes on -/

theorem running_notify (user_id : UserId) : (w.notify user_id).running = w.running := by
  unfold Server.notify
  split <;> rfl

theorem running_notify_all (members : List UserId) :
    (w.notify_all members).running = w.running := by
  induction members generalizing w with
  | nil => rfl
  | cons member_id rest ih =>
    unfold Server.notify_all
    split
    · exact ih
    · rfl

theorem running_perform (s : ρ) (e : Effect Stored) : (w.perform s e).running = w.running := by
  cases e with
  | relay target_id message => exact running_notify target_id
  | _ => rfl

theorem running_effects (s : ρ) (es : List (Effect Stored)) :
    (es.foldl (Server.perform s) w).running = w.running := by
  induction es generalizing w with
  | nil => rfl
  | cons e es ih => exact ih.trans (running_perform s e)

theorem running_resume {s : ρ} {ev : AnyEvent} (h : w.resume verify s ev = some w') :
    w'.running = w.running := by
  obtain ⟨⟨run, effects⟩, _, h⟩ := Option.bind_eq_some_iff.mp h
  obtain ⟨w₀, hbegin, rfl⟩ := Option.map_eq_some_iff.mp h
  rw [running_effects]
  rcases hb : ev.batch with _ | batch
  · rw [begin_other hb hbegin]
    rfl
  · rw [(begin_flush hb hbegin).2]
    rfl

theorem running_settle {s : ρ} (h : w.settle verify s = some w') : w'.running = w.running := by
  unfold Server.settle at h
  split at h
  · exact running_resume h
  · exact Option.some.inj h ▸ rfl

theorem running_deliver (s t : ρ) (item : Item) (receipts : Receipts) (member_id : UserId) :
    (w.deliver s item receipts member_id t).running = w.running := by
  cases receipts with
  | posted =>
    simp only [Server.deliver, Server.send_receipt]
    split <;> rfl
  | _ => rfl

theorem running_visit (s : ρ) (item : Item) (receipts : Receipts) (members : List UserId) :
    (w.visit s item receipts members).running = w.running := by
  induction members generalizing w with
  | nil => rfl
  | cons member_id rest ih =>
    unfold Server.visit
    split
    · exact ih.trans (running_deliver s _ item receipts member_id)
    · rfl

/-- The process ends with a posted closure whose frame `enqueue` does not take, and with no
other step. -/
theorem running_step {l : Label ρ} (hok : w.KeepsMessages verify l)
    (h : w.step verify l = some w') : w'.running := by
  obtain ⟨hrun, h⟩ := step_eq_some.mp h
  cases l with
  | resume s ev =>
    simp only [Server.act] at h
    split_ifs at h
    exact (running_resume h).trans hrun
  | fan_out s answers =>
    obtain ⟨w₁, h₁, h⟩ := Option.bind_eq_some_iff.mp h
    refine (running_settle h).trans (Eq.trans ?_ hrun)
    unfold Server.start_routing at h₁
    split at h₁
    · obtain ⟨plan, _, rfl⟩ := Option.map_eq_some_iff.mp h₁
      cases plan with
      | none => rfl
      | some plan => exact running_visit s _ _ _
    · simp at h₁
  | lpushed s =>
    obtain ⟨w₁, h₁, h⟩ := Option.bind_eq_some_iff.mp h
    refine (running_settle h).trans (Eq.trans ?_ hrun)
    unfold Server.go_on_routing at h₁
    split at h₁
    · exact Option.some.inj h₁ ▸ running_visit s _ _ _
    · simp at h₁
  | notify user_id => exact Option.some.inj h ▸ (running_notify user_id).trans hrun
  | delete_message members => exact Option.some.inj h ▸ (running_notify_all members).trans hrun
  | notice_lpushed k =>
    obtain ⟨⟨member_id, rest⟩, _, rfl⟩ := Option.map_eq_some_iff.mp h
    exact (running_notify_all rest).trans hrun
  | run_post s =>
    simp only [Server.act] at h
    split at h
    · simp at h
    · rename_i p rest hp
      have htakes := hok.2 p (by simp [hp])
      rw [← Option.some.inj h, Server.run_post, if_pos htakes]
      exact hrun
  | start s | written s | failed s =>
    obtain ⟨q, _, rfl⟩ := Option.map_eq_some_iff.mp h
    exact hrun
  | destroy s =>
    simp only [Server.act] at h
    split_ifs at h
    exact Option.some.inj h ▸ hrun

/-- In a run whose steps keep the messages, every CHAT message that was routed is safe. -/
theorem run_loses_no_message {ls : List (Label ρ)}
    (hok : (chat_server verify transport).Meets (fun w l => w.KeepsMessages verify l) ls)
    (hr : (chat_server verify transport).run ls = some w) : w.NoMessageLost := by
  intro item user_id hi
  obtain ⟨ms, hms, hmeets⟩ :=
    server_refines_net (fun _ _ _ _ hok h => careful_of_keeps_messages hok h) hok hr
  have hrun : w.running := Machine.invariant_of_meets (I := fun w => w.running = true) rfl
    (fun _ _ _ _ => running_step) hok hr
  rcases routed_messages_are_safe hmeets hms hi with hmail | ⟨s, hs, hsafe⟩
  · exact .inl (mem_mail.mp hmail)
  · exact .inr ⟨s, hs, hsafe.imp (fun hp => ⟨hrun, hp⟩) id⟩

end Lost

/-- User 5 sends to user 7, who is offline; user 7 connects, and the flush is written to him. -/
def kept_run : List (Label (Fin 2)) :=
  log_in conn_5 5 ++ [flush conn_5 []] ++ send conn_5 7 ++ [.lpushed conn_5] ++ log_in conn_7 7 ++
    [flush conn_7 [.message (sent 0 5 7)], .start conn_7, .written conn_7]

theorem kept_run_loses_no_message : ∃ w, two_sessions.run kept_run = some w ∧ w.NoMessageLost := by
  obtain ⟨w, hr⟩ : ∃ w, two_sessions.run kept_run = some w := ⟨_, rfl⟩
  exact ⟨w, hr, run_loses_no_message (by decide +kernel) hr⟩

/-- The same, but the connection breaks while the flush is written. -/
def lost_run : List (Label (Fin 2)) :=
  log_in conn_5 5 ++ [flush conn_5 []] ++ send conn_5 7 ++ [.lpushed conn_5] ++ log_in conn_7 7 ++
    [flush conn_7 [.message (sent 0 5 7)], .start conn_7, .failed conn_7]

theorem a_broken_flush_loses_its_message :
    ∃ w, two_sessions.run lost_run = some w ∧ ¬ w.NoMessageLost := by
  refine ⟨_, rfl, fun h => ?_⟩
  have hsafe := h (sent 0 5 7) 7 (by decide)
  revert hsafe
  unfold Server.Safe
  decide

/-! ## No message is left behind -/

namespace Server

variable (w : Server ρ)

/-- A routing waits for an `LPUSH`, and is not done with the user. -/
def SendingTo (user_id : UserId) : Prop :=
  ∃ t, ∃ y ∈ (w.sessions t).sending, user_id ∈ y.2

/-- While no message is being sent to a user whose session in the registry has flushed his
offline queue, the queue is empty. -/
def NobodyStranded : Prop :=
  ∀ user_id, (∃ s ∈ w.lookup user_id, (w.sessions s).stage = .flushed) →
    ¬ w.SendingTo user_id → w.offline user_id = []

/-- The `LPUSH` of a step, if there is one, is for a user whose session in the registry has not
flushed his offline queue. -/
def StoresInTime : Label ρ → Prop
  | .lpushed s => ∀ y ∈ (w.sessions s).sending, ∀ v ∈ y.2.head?, ∀ t ∈ w.lookup v,
      (w.sessions t).stage ≠ .flushed
  | .notice_lpushed k => ∀ waiting ∈ w.deletions[k]?, ∀ t ∈ w.lookup waiting.1,
      (w.sessions t).stage ≠ .flushed
  | _ => True

instance : ∀ l, Decidable (w.StoresInTime l)
  | .lpushed s => inferInstanceAs (Decidable (∀ y ∈ (w.sessions s).sending, _))
  | .notice_lpushed k => inferInstanceAs (Decidable (∀ waiting ∈ w.deletions[k]?, _))
  | .resume _ _ | .fan_out _ _ | .notify _ | .delete_message _ | .run_post _ | .start _
  | .written _ | .failed _ | .destroy _ => inferInstanceAs (Decidable True)

end Server

section Stranded

variable {w w' : Server ρ} {verify : Bytes → Option UserId} {transport : ρ → Transport}

omit [DecidableEq ρ] in
/-- Whatever stores nothing is timely. -/
theorem timely_of_ne_store {m : Move UserId ρ Item} (hm : ∀ s, m ≠ .store s)
    (hm' : ∀ u, m ≠ .store_notice u) (x : Net UserId ρ Item) : Timely x m := by
  cases m with
  | store s => exact absurd rfl (hm s)
  | store_notice u => exact absurd rfl (hm' u)
  | _ => trivial

theorem visit_timely {s : ρ} {item : Item} {receipts : Receipts} {members : List UserId} :
    (net : Machine (Net UserId ρ Item) _).MeetsFrom Timely (w.sending s item members)
      (visit_moves s item receipts w members) :=
  visit_meets (P := fun _ _ => True) (fun _ _ _ _ _ _ => ⟨trivial, trivial⟩) (fun _ => trivial)
    trivial

theorem timely_of_stores_in_time {l : Label ρ} (hok : w.StoresInTime l)
    (h : w.step verify l = some w') :
    (net : Machine (Net UserId ρ Item) _).MeetsFrom Timely w.view (moves verify w l) := by
  have haside : ∀ m, Aside m → ∀ x : Net UserId ρ Item, Timely x m :=
    fun m hm => timely_of_ne_store (fun s hs => by simp [hs, Aside] at hm)
      (fun u hu => by simp [hu, Aside] at hm)
  cases l with
  | resume s ev =>
    exact resume_meets haside (fun _ _ _ => trivial) (fun _ _ _ _ _ => trivial) h
  | fan_out s answers => exact fan_out_meets fun loop _ => ⟨trivial, visit_timely⟩
  | lpushed s =>
    refine lpushed_meets fun item member_id rest receipts hroute => ⟨?_, visit_timely⟩
    have hs : (w.sessions s).sending = some (item, member_id :: rest) := by
      unfold ISession.sending
      rw [hroute]
    intro t ht
    exact hok _ hs member_id rfl t ((target_eq (x := w.view) hs).mp ht)
  | notify user_id => exact notify_meets haside _
  | delete_message members => exact notify_all_meets haside members _
  | notice_lpushed k => exact notice_lpushed_meets haside hok
  | destroy s => exact destroy_meets haside _
  | run_post s => exact run_post_meets trivial
  | failed s => exact ⟨trivial, fun _ _ => trivial⟩
  | start s | written s =>
    refine Machine.meetsFrom_of_forall (fun m hm => timely_of_ne_store ?_ ?_) _
    · rintro s rfl
      simp [moves, next_moves] at hm
    · rintro u rfl
      simp [moves, next_moves] at hm

/-- In a run that stores in time, no message is left behind for a user who is online. -/
theorem run_strands_nobody {ls : List (Label ρ)}
    (hok : (chat_server verify transport).Meets Server.StoresInTime ls)
    (hr : (chat_server verify transport).run ls = some w) : w.NobodyStranded := by
  intro user_id hflushed _
  obtain ⟨ms, hms, hmeets⟩ :=
    server_refines_net (fun _ _ _ _ hok h => timely_of_stores_in_time hok h) hok hr
  exact mailboxes_of_the_connected_are_empty hmeets hms hflushed

end Stranded

theorem kept_run_strands_nobody :
    ∃ w, two_sessions.run kept_run = some w ∧ w.NobodyStranded := by
  obtain ⟨w, hr⟩ : ∃ w, two_sessions.run kept_run = some w := ⟨_, rfl⟩
  exact ⟨w, hr, run_strands_nobody (by decide +kernel) hr⟩

/-- User 5 sends to user 7, whom the registry does not find; before the `LPUSH`, user 7
connects and flushes. -/
def stranded_run : List (Label (Fin 2)) :=
  log_in conn_5 5 ++ [flush conn_5 []] ++ send conn_5 7 ++ log_in conn_7 7 ++
    [flush conn_7 [], .lpushed conn_5]

theorem a_late_lpush_strands_its_message :
    ∃ w, two_sessions.run stranded_run = some w ∧ ¬ w.NobodyStranded := by
  refine ⟨_, rfl, fun h => ?_⟩
  have hnil := h 7 ⟨conn_7, by decide⟩ (by unfold Server.SendingTo; decide)
  revert hnil
  decide

end loomic.server
