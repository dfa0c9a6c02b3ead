-- The order in which the messages of a sender are put on the queues of a
-- user's sessions. A flush puts the backlog behind whatever was put there
-- before, so a live message can overtake it.
import Loomic.Delivery
import Loomic.Lib.StoreForwardOrder
import Mathlib.Data.Fintype.Basic

open loomic.frame loomic.routing loomic.session_run machines store_forward

namespace loomic.server

variable {ρ : Type} [DecidableEq ρ]

namespace Server

variable (w : Server ρ)

/-- The messages of a sender were put on the queues of a user's sessions in the order in which
they were routed. -/
def SentInOrder : Prop :=
  w.puts.Pairwise fun p q => p.1 = q.1 → p.2.sender = q.2.sender → p.2.no < q.2.no

/-- The messages posted to a session that its strand has not run yet. -/
def posted (s : ρ) : List Item := (w.sessions s).posts.filterMap Packet.message?

/-- No other message of its sender is in the user's offline queue, or posted to a session of
the user that is no longer in the registry. -/
def ClearOf (item : Item) (user_id : UserId) : Prop :=
  (∀ item' ∈ w.mail user_id, item'.sender ≠ item.sender) ∧
  ∀ t, w.user t = user_id → w.lookup user_id ≠ some t →
    ∀ item' ∈ w.posted t, item'.sender ≠ item.sender

instance [Fintype ρ] (item : Item) (user_id : UserId) : Decidable (w.ClearOf item user_id) :=
  inferInstanceAs (Decidable (_ ∧ ∀ _, _))

/-- A step that lets no message of a sender overtake another. A message is posted to a user
while the way to him is clear. A routing starts while the sender has no other one under way to
the same user. A flush finds no message whose sender has another one posted to the user. -/
def KeepsOrder (l : Label ρ) : Prop :=
  (∀ loop ∈ w.loop l, ∀ v ∈ w.online loop.members, w.ClearOf loop.item v) ∧
  match l with
  | .fan_out s answers => ∀ loop ∈ w.loop (.fan_out s answers), ∀ t,
      ∀ y ∈ (w.sessions t).sending, y.1.sender = loop.item.sender →
        ∀ v ∈ loop.members, v ∉ y.2
  | .resume s ev => ev.batch ≠ none → ∀ item ∈ w.mail (w.user s), ∀ t, w.user t = w.user s →
      ∀ item' ∈ w.posted t, item'.sender ≠ item.sender
  | _ => True

instance [Fintype ρ] : ∀ l, Decidable (w.KeepsOrder l)
  | .resume _ _ => inferInstanceAs (Decidable (_ ∧ (_ → _)))
  | .fan_out s answers =>
    inferInstanceAs (Decidable (_ ∧ ∀ loop ∈ w.loop (.fan_out s answers), _))
  | .lpushed _ | .notify _ | .delete_message _ | .notice_lpushed _ | .run_post _ | .start _
  | .written _ | .failed _ | .destroy _ => inferInstanceAs (Decidable (_ ∧ True))

end Server

section Order

variable {w w' : Server ρ} {verify : Bytes → Option UserId} {transport : ρ → Transport}

theorem posted_deliver {s t t' : ρ} {item : Item} {receipts : Receipts} {member_id : UserId} :
    (w.deliver s item receipts member_id t).posted t' =
      if t' = t then w.posted t' ++ [item] else w.posted t' := by
  change (w.deliver s item receipts member_id t).view.posted t' = _
  rw [view_deliver]
  exact (posted_reply s t' item member_id _).trans (posted_post t t' _)

theorem mail_deliver {s t : ρ} {item : Item} {receipts : Receipts} {member_id : UserId} :
    (w.deliver s item receipts member_id t).mail = w.mail := by
  refine (congrArg Net.mail (view_deliver w s t item receipts member_id)).trans ?_
  cases w.reply s receipts <;> rfl

/-- What the loop relies on for each user whom it serves in this step. -/
structure Clear (w : Server ρ) (item : Item) (members : List UserId) : Prop where
  user : ∀ v t, w.lookup v = some t → w.user t = v
  nodup : members.Nodup
  clear : ∀ v ∈ w.online members, w.ClearOf item v

theorem clear_deliver {s t : ρ} {item : Item} {receipts : Receipts} {member_id : UserId}
    {rest : List UserId} (hc : Clear w item (member_id :: rest))
    (ht : w.lookup member_id = some t) :
    Clear (w.deliver s item receipts member_id t) item rest := by
  have huser : ∀ t', (w.deliver s item receipts member_id t).user t' = w.user t' :=
    fun t' => congrArg AnyRun.user_id (run_deliver t')
  have hmem : ∀ v ∈ w.online rest, v ∈ w.online (member_id :: rest) := by
    intro v hv
    rw [online_cons ht]
    exact List.mem_cons_of_mem _ hv
  refine ⟨fun v t' hv => ?_, hc.nodup.of_cons, fun v hv => ?_⟩
  · rw [lookup_deliver] at hv
    exact (huser t').trans (hc.user v t' hv)
  · rw [online_deliver] at hv
    obtain ⟨hoff, hposted⟩ := hc.clear v (hmem v hv)
    refine ⟨by rwa [mail_deliver], fun t' ho hne item' hi => ?_⟩
    rw [lookup_deliver] at hne
    rw [huser] at ho
    rw [posted_deliver] at hi
    split at hi
    · -- the session to which the message was posted is that of another user
      rename_i htt
      subst htt
      obtain rfl : v = member_id := ho.symm.trans (hc.user member_id t' ht)
      exact absurd (online_subset v hv) (List.nodup_cons.mp hc.nodup).1
    · exact hposted t' ho hne item' hi

omit [DecidableEq ρ] in
theorem nodup_of_fan_out {s : ρ} {answers : Answers} {loop : Loop ρ}
    (hl : loop ∈ w.loop (.fan_out s answers)) : loop.members.Nodup := by
  simp only [Server.loop, Option.mem_def] at hl
  split at hl
  · split at hl
    · rename_i plan hplan
      obtain rfl := Option.some.inj hl
      exact (plan_spec hplan).2
    · simp at hl
  · simp at hl

theorem visit_orderly {s : ρ} {item : Item} {receipts : Receipts} {members : List UserId}
    (hc : Clear w item members) :
    (net : Machine (Net UserId ρ Item) _).MeetsFrom (Orderly Item.sender)
      (w.sending s item members) (visit_moves s item receipts w members) := by
  refine visit_meets (P := fun w members => Clear w item members) ?_ (fun _ => trivial) hc
  intro w member_id rest t hc ht
  have hmem : member_id ∈ w.online (member_id :: rest) := by
    rw [online_cons ht]
    exact List.mem_cons_self
  refine ⟨fun y hy v hv => ?_, clear_deliver hc ht⟩
  obtain rfl : (item, member_id :: rest) = y := by simpa [Server.sending] using hy
  obtain rfl : member_id = v := Option.some.inj hv
  exact hc.clear member_id hmem

theorem orderly_of_keeps_order {l : Label ρ} (hw : Fit w) (hok : w.KeepsOrder l)
    (h : w.step verify l = some w') :
    (net : Machine (Net UserId ρ Item) _).MeetsFrom (Orderly Item.sender) w.view
      (moves verify w l) := by
  obtain ⟨hloop, hok⟩ := hok
  have haside : ∀ m, Aside m → ∀ x : Net UserId ρ Item, Orderly Item.sender x m := by
    intro m hm x
    cases m with
    | join | forget | post_notice | push_notice => trivial
    | _ => exact False.elim hm
  cases l with
  | resume s ev =>
    refine resume_meets haside ?_ (fun _ _ _ _ _ => trivial) h
    intro batch hb _
    exact hok (by simp [Option.mem_def.mp hb])
  | fan_out s answers =>
    refine fan_out_meets fun loop hl => ⟨hok loop hl, visit_orderly ?_⟩
    exact ⟨hw.sound.owner_eq, nodup_of_fan_out hl, hloop loop hl⟩
  | lpushed s =>
    refine lpushed_meets fun item member_id rest receipts hroute => ⟨trivial, visit_orderly ?_⟩
    have hs : (w.sessions s).sending = some (item, member_id :: rest) := by
      unfold ISession.sending
      rw [hroute]
    have hl : ⟨s, item, rest, receipts⟩ ∈ w.loop (.lpushed s) := by simp [Server.loop, hroute]
    have hnodup := hw.sound.nodup s item _ hs
    refine ⟨hw.sound.owner_eq, hnodup.of_cons, fun v hv => ⟨fun item' hi => ?_,
      (hloop _ hl v hv).2⟩⟩
    have hv' : v ≠ member_id := by
      rintro rfl
      exact (List.nodup_cons.mp hnodup).1 (online_subset v hv)
    have hmail : (w.lpush item member_id).mail v = w.mail v :=
      congrArg (List.filterMap Entry.message?) (Function.update_of_ne hv' _ _)
    exact (hloop _ hl v hv).1 item' (hmail ▸ hi)
  | notify user_id => exact notify_meets haside _
  | delete_message members => exact notify_all_meets haside members _
  | notice_lpushed k => exact notice_lpushed_meets haside fun _ _ => trivial
  | destroy s => exact destroy_meets haside _
  | run_post s => exact run_post_meets trivial
  | failed s => exact ⟨trivial, fun _ _ => trivial⟩
  | start s | written s =>
    exact Machine.meetsFrom_of_forall (by simp [moves, next_moves, Orderly]) _

/-- In a run whose steps keep the order, the messages of a sender to a user are put on the
write queues in the order in which they were routed. -/
theorem run_sends_in_order {ls : List (Label ρ)}
    (hok : (chat_server verify transport).Meets Server.KeepsOrder ls)
    (hr : (chat_server verify transport).run ls = some w) : w.SentInOrder := by
  obtain ⟨ms, hms, hmeets⟩ :=
    server_refines_net (fun _ _ _ hw hok h => orderly_of_keeps_order hw hok h) hok hr
  exact puts_are_in_order hmeets hms

end Order

/-- User 5 sends to user 7, who is offline, and again when he has connected. -/
def ordered_run : List (Label (Fin 2)) :=
  log_in conn_5 5 ++ [flush conn_5 []] ++ send conn_5 7 ++ [.lpushed conn_5] ++ log_in conn_7 7 ++
    [flush conn_7 [.message (sent 0 5 7)]] ++ send conn_5 7 ++ [.run_post conn_7]

theorem ordered_run_sends_in_order :
    ∃ w, two_sessions.run ordered_run = some w ∧ w.SentInOrder := by
  obtain ⟨w, hr⟩ : ∃ w, two_sessions.run ordered_run = some w := ⟨_, rfl⟩
  exact ⟨w, hr, run_sends_in_order (by decide +kernel) hr⟩

/-- User 7 is in the registry, but has not flushed, when the second message is sent. -/
def overtaken_run : List (Label (Fin 2)) :=
  log_in conn_5 5 ++ [flush conn_5 []] ++ send conn_5 7 ++ [.lpushed conn_5] ++
    (log_in conn_7 7).take 2 ++ send conn_5 7 ++ [.run_post conn_7] ++ (log_in conn_7 7).drop 2 ++
    [flush conn_7 [.message (sent 0 5 7)]]

theorem a_live_message_overtakes_the_backlog :
    ∃ w, two_sessions.run overtaken_run = some w ∧ ¬ w.SentInOrder := by
  refine ⟨_, rfl, ?_⟩
  unfold Server.SentInOrder
  decide

end loomic.server
