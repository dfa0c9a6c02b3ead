-- What a receipt is worth. It is sent when the message is posted to the
-- recipient's session, before anything is written to a socket, so it says
-- nothing about the socket.
import Loomic.Delivery
import Mathlib.Data.Fintype.Basic

open loomic.frame loomic.queue loomic.routing loomic.session_run machines store_forward

namespace loomic.server

variable {ρ : Type} [DecidableEq ρ]

namespace Server

variable (w : Server ρ)

/-- The frame of the message has been written completely to a socket of the user. -/
def Reached (item : Item) (user_id : UserId) : Prop :=
  ∃ s, w.user s = user_id ∧ .message item ∈ (w.sessions s).written

/-- Every receipt that was sent is for a message that has reached its recipient. -/
def ReceiptsHonest : Prop := ∀ item user_id, (item, user_id) ∈ w.receipts → w.Reached item user_id

/-- A routing session that sends receipts has somewhere to send them to. -/
def gives_receipts (s : ρ) : Receipts → Bool
  | .none => false
  | .posted => (w.lookup (w.user s)).isSome
  | .pushed => true

/-- A step that finds no recipient online, or sends no receipts. -/
def SendsNoReceipt (l : Label ρ) : Prop :=
  ∀ loop ∈ w.loop l, w.online loop.members = [] ∨
    w.gives_receipts loop.session loop.receipts = false

instance (l : Label ρ) : Decidable (w.SendsNoReceipt l) :=
  inferInstanceAs (Decidable (∀ loop ∈ w.loop l, _ ∨ _))

def receipt? : Packet UserId Item → Option (Item × UserId)
  | .receipt item user_id => some (item, user_id)
  | _ => none

/-- What a session still has to write when `do_write` of the session `s` is about to take up a
frame: the frame that `s` wrote before is done. -/
def unwritten (s t : ρ) : List (Packet UserId Item) :=
  (w.sessions t).posts ++ (w.sessions t).queue.write_queue ++
    if t = s then [] else (w.sessions t).queue.in_flight.toList

/-- `do_write` takes up no receipt while a session of the recipient has the message still to
write, or has lost it. -/
def ReceiptsWait : Label ρ → Prop
  | .start s | .written s => ∀ y ∈ (w.sessions s).queue.write_queue.head?.bind receipt?,
      ∀ t, w.user t = y.2 → .message y.1 ∉ w.unwritten s t ∧ .message y.1 ∉ (w.sessions t).lost
  | _ => True

instance [Fintype ρ] : ∀ l, Decidable (w.ReceiptsWait l)
  | .start s | .written s => inferInstanceAs (Decidable
      (∀ y ∈ (w.sessions s).queue.write_queue.head?.bind receipt?, _))
  | .resume _ _ | .fan_out _ _ | .lpushed _ | .notify _ | .delete_message _ | .notice_lpushed _
  | .run_post _ | .failed _ | .destroy _ => inferInstanceAs (Decidable True)

end Server

section Silent

variable {w w' : Server ρ} {l : Label ρ} {verify : Bytes → Option UserId}
  {transport : ρ → Transport}

omit [DecidableEq ρ] in
theorem reply_eq_silent {s : ρ} {receipts : Receipts} :
    w.reply s receipts = .silent ↔ w.gives_receipts s receipts = false := by
  cases receipts with
  | none => simp [Server.reply, Server.gives_receipts]
  | posted =>
    simp only [Server.reply, Server.gives_receipts]
    rcases w.lookup (w.user s) with _ | a <;> simp
  | pushed => simp [Server.reply, Server.gives_receipts]

theorem visit_silent {s : ρ} {item : Item} {receipts : Receipts} {members : List UserId}
    (h : w.online members = [] ∨ w.gives_receipts s receipts = false) :
    (net : Machine (Net UserId ρ Item) _).MeetsFrom Silent (w.sending s item members)
      (visit_moves s item receipts w members) := by
  refine Machine.meetsFrom_of_forall (fun m hm x => ?_) _
  rcases mem_visit_moves hm with rfl | ⟨rfl, hne⟩
  · trivial
  · exact reply_eq_silent.mpr (h.resolve_left hne)

theorem silent_of_sends_no_receipt (hok : w.SendsNoReceipt l) (h : w.step verify l = some w') :
    (net : Machine (Net UserId ρ Item) _).MeetsFrom Silent w.view (moves verify w l) := by
  have haside : ∀ m, Aside m → ∀ x : Net UserId ρ Item, Silent x m := by
    intro m hm x
    cases m with
    | deliver => exact False.elim hm
    | _ => trivial
  cases l with
  | resume s ev =>
    exact resume_meets haside (fun _ _ _ => trivial) (fun _ _ _ _ _ => trivial) h
  | fan_out s answers =>
    refine fan_out_meets fun loop hl => ⟨trivial, visit_silent (hok loop hl)⟩
  | lpushed s =>
    refine lpushed_meets fun item member_id rest receipts hroute => ⟨trivial, visit_silent ?_⟩
    exact hok ⟨s, item, rest, receipts⟩ (by simp [Server.loop, hroute])
  | notify user_id => exact notify_meets haside _
  | delete_message members => exact notify_all_meets haside members _
  | notice_lpushed k => exact notice_lpushed_meets haside fun _ _ => trivial
  | destroy s => exact destroy_meets haside _
  | run_post s => exact run_post_meets trivial
  | failed s => exact ⟨trivial, fun _ _ => trivial⟩
  | start s | written s =>
    exact Machine.meetsFrom_of_forall (by simp [moves, next_moves, Silent]) _

/-- A step that sends a receipt sends one for a message that has not been written. -/
theorem sends_no_receipt_of_honest (hw : Fit w) (hn : Numbered Item.no w.view)
    (h : w.step verify l = some w') (hh : w'.ReceiptsHonest) : w.SendsNoReceipt l := by
  intro loop hl
  obtain ⟨m, w₁, hmoves, hlookup, hsessions, hm⟩ := loop_moves hl verify
  have hrun := (step_refines hw h).1
  have hwrote : ∀ m ∈ moves verify w l, ∀ s, m ≠ .wrote s := by
    rw [hmoves]
    intro m' hm'
    rcases List.mem_cons.mp hm' with rfl | hm'
    · exact hm
    · rcases mem_visit_moves hm' with rfl | ⟨rfl, _⟩ <;> simp
  have hsilent := silent_of_honest hw.sound hn hwrote hrun hh
  have honline : w₁.online loop.members = w.online loop.members := by
    unfold Server.online
    rw [hlookup]
  have hreply : w₁.reply loop.session loop.receipts = w.reply loop.session loop.receipts := by
    unfold Server.reply Server.user
    rw [hlookup, hsessions]
  by_cases hne : w.online loop.members = []
  · exact .inl hne
  · have hmem : .deliver loop.session (w.reply loop.session loop.receipts) ∈ moves verify w l := by
      rw [hmoves, ← hreply]
      exact List.mem_cons_of_mem m (deliver_mem_visit_moves (honline ▸ hne))
    obtain ⟨x, hx⟩ := Machine.exists_of_meetsFrom hsilent hrun _ hmem
    exact .inr (reply_eq_silent.mp hx)

/-- What holds of the server as long as it sends no receipt. -/
structure Discreet (w : Server ρ) : Prop where
  fit : Fit w
  numbered : Numbered Item.no w.view
  receipts : w.receipts = []

theorem discreet_start : Discreet (chat_server verify transport).start := by
  refine ⟨fit_start, ?_, rfl⟩
  rw [view_initial]
  exact numbered_start 0

theorem discreet_step (hw : Discreet w) (hok : w.SendsNoReceipt l)
    (h : w.step verify l = some w') : Discreet w' := by
  have hrun := (step_refines hw.fit h).1
  refine ⟨fit_step hw.fit h, ?_, ?_⟩
  · exact (Machine.runFrom_invariant (I := fun x => Sound x ∧ Numbered Item.no x)
      (fun _ _ _ hx h => ⟨sound_step hx.1 h, numbered_step hx.1 hx.2 h⟩)
      ⟨hw.fit.sound, hw.numbered⟩ hrun).2
  · exact Machine.runFrom_invariant_of_meets (I := fun x : Net UserId ρ Item => x.receipts = [])
      (fun _ _ _ hx hok h => (receipts_of_silent hok h).trans hx)
      (silent_of_sends_no_receipt hok h) hw.receipts hrun

end Silent

/-! ## Receipts that are written -/

section Written

variable {w w' : Server ρ} {l : Label ρ} {verify : Bytes → Option UserId}
  {transport : ρ → Transport}

/-- The frame that is written when `do_write` goes on is done. -/
theorem late_next {s : ρ} (hok : w.ReceiptsWait (.start s))
    (written : ρ → List (Packet UserId Item)) :
    Late { w.view with in_flight := Function.update w.view.in_flight s none, written := written }
      (.next s) := by
  intro item user_id hhead t ht
  have hreceipt : (w.sessions s).queue.write_queue.head? = some (.receipt item user_id) := hhead
  obtain ⟨hp, hl⟩ := hok (item, user_id) (by simp [hreceipt, Server.receipt?]) t ht
  refine ⟨fun hi => hp ?_, hl⟩
  unfold Server.unwritten
  by_cases hts : t = s
  · subst hts
    simpa [Net.pending, Server.view] using hi
  · simpa [Net.pending, Server.view, hts] using hi

theorem next_moves_late {s : ρ} {x : Net UserId ρ Item} (hlate : Late x (.next s)) :
    (net : Machine (Net UserId ρ Item) _).MeetsFrom Late x (next_moves w s) := by
  unfold next_moves
  split
  · trivial
  · exact ⟨hlate, fun _ _ => trivial⟩

theorem late_of_receipts_wait (hok : w.ReceiptsWait l) (h : w.step verify l = some w') :
    (net : Machine (Net UserId ρ Item) _).MeetsFrom Late w.view (moves verify w l) := by
  have hother : ∀ m : Move UserId ρ Item, (∀ s, m ≠ .next s) → ∀ x, Late x m := by
    intro m hm x
    cases m with
    | next s => exact absurd rfl (hm s)
    | _ => trivial
  have haside : ∀ m, Aside m → ∀ x : Net UserId ρ Item, Late x m :=
    fun m hm => hother m fun s hs => by simp [hs, Aside] at hm
  have hvisit : ∀ (w : Server ρ) (s : ρ) item receipts members,
      (net : Machine (Net UserId ρ Item) _).MeetsFrom Late (w.sending s item members)
        (visit_moves s item receipts w members) := by
    intro w s item receipts members
    refine Machine.meetsFrom_of_forall (fun m hm => hother m ?_) _
    rcases mem_visit_moves hm with rfl | ⟨rfl, _⟩ <;> simp
  cases l with
  | resume s ev =>
    exact resume_meets haside (fun _ _ _ => trivial) (fun _ _ _ _ _ => trivial) h
  | fan_out s answers => exact fan_out_meets fun loop _ => ⟨trivial, hvisit _ _ _ _ _⟩
  | lpushed s => exact lpushed_meets fun _ _ _ _ _ => ⟨trivial, hvisit _ _ _ _ _⟩
  | notify user_id => exact notify_meets haside _
  | delete_message members => exact notify_all_meets haside members _
  | notice_lpushed k => exact notice_lpushed_meets haside fun _ _ => trivial
  | destroy s => exact destroy_meets haside _
  | run_post s => exact run_post_meets trivial
  | failed s => exact ⟨trivial, fun _ _ => trivial⟩
  | start s =>
    obtain ⟨q, hq, _⟩ := Option.map_eq_some_iff.mp (step_eq_some.mp h).2
    have hnone : w.view.in_flight s = none := (start_eq_some hq).2.1
    have hlate := late_next hok w.view.written
    rw [← hnone, Function.update_eq_self] at hlate
    exact next_moves_late hlate
  | written s =>
    refine ⟨trivial, fun x hx => ?_⟩
    obtain ⟨p, _, rfl⟩ := Option.map_eq_some_iff.mp hx
    exact next_moves_late (late_next hok _)

end Written

/-- Which runs send receipts only for messages that have reached their recipients: those that
send none. And when `do_write` lets receipts wait, those that it has written are for messages
that have. -/
theorem receipts_mean_delivery {w : Server ρ} {verify : Bytes → Option UserId}
    {transport : ρ → Transport} {ls : List (Label ρ)}
    (hr : (chat_server verify transport).run ls = some w) :
    ((∀ ls' w', ls' <+: ls → (chat_server verify transport).run ls' = some w' →
        w'.ReceiptsHonest) ↔ (chat_server verify transport).Meets Server.SendsNoReceipt ls) ∧
      ((chat_server verify transport).Meets Server.ReceiptsWait ls →
        ∀ s item user_id, .receipt item user_id ∈ (w.sessions s).written →
          w.Reached item user_id) := by
  refine ⟨?_, fun hok s item user_id hi => ?_⟩
  · refine Machine.always_iff_meets (I := Discreet) discreet_start
      (fun _ _ _ hw hok h => discreet_step hw hok h) ?_ ?_ hr
    · intro w hw item user_id hi
      simp [hw.receipts] at hi
    · exact fun w l w' hw h hh => sends_no_receipt_of_honest hw.fit hw.numbered h hh
  · obtain ⟨ms, hms, hmeets⟩ :=
      server_refines_net (fun _ _ _ _ hok h => late_of_receipts_wait hok h) hok hr
    exact written_receipts_are_honest hmeets hms hi

/-- User 5 sends to user 7, who is online. His frame is written, and then the receipt. -/
def delivered_run : List (Label (Fin 2)) :=
  log_in conn_5 5 ++ [flush conn_5 []] ++ log_in conn_7 7 ++ [flush conn_7 []] ++ send conn_5 7 ++
    [.run_post conn_7, .start conn_7, .written conn_7, .run_post conn_5, .start conn_5,
      .written conn_5]

theorem delivered_run_waits : ∃ w, two_sessions.run delivered_run = some w ∧
    ¬ two_sessions.Meets Server.SendsNoReceipt delivered_run ∧
    ¬ (∀ ls' w', ls' <+: delivered_run → two_sessions.run ls' = some w' → w'.ReceiptsHonest) ∧
    ∀ s item user_id, .receipt item user_id ∈ (w.sessions s).written →
      w.Reached item user_id := by
  obtain ⟨w, hr⟩ : ∃ w, two_sessions.run delivered_run = some w := ⟨_, rfl⟩
  obtain ⟨hsent, hwritten⟩ := receipts_mean_delivery hr
  have hmeets : ¬ two_sessions.Meets Server.SendsNoReceipt delivered_run := by decide +kernel
  exact ⟨w, hr, hmeets, fun h => hmeets (hsent.mp h), hwritten (by decide +kernel)⟩

/-- The same, but the connection of user 7 breaks while the frame is written. -/
def broken_run : List (Label (Fin 2)) :=
  log_in conn_5 5 ++ [flush conn_5 []] ++ log_in conn_7 7 ++ [flush conn_7 []] ++ send conn_5 7 ++
    [.run_post conn_7, .start conn_7, .failed conn_7, .run_post conn_5, .start conn_5,
      .written conn_5]

/-- The sender has the receipt for a message that his recipient never got. -/
theorem a_receipt_outlives_its_message : ∃ w, two_sessions.run broken_run = some w ∧
    .receipt (sent 0 5 7) 7 ∈ (w.sessions conn_5).written ∧ (sent 0 5 7, 7) ∈ w.receipts ∧
    ¬ w.Reached (sent 0 5 7) 7 := by
  refine ⟨_, rfl, by decide, by decide, ?_⟩
  unfold Server.Reached
  decide

end loomic.server
