-- The loop over the members of a routing, as moves of the net: which users it
-- serves in one step, and when its moves meet a condition.
import Loomic.ServerRefinement

open loomic.frame loomic.routing loomic.session_run machines store_forward

namespace loomic.server

variable {ρ : Type} [DecidableEq ρ]

/-- The loop that a step starts or goes on with: the session that routes, the message, the
users to visit in turn, and the receipts. -/
structure Loop (ρ : Type) where
  session : ρ
  item : Item
  members : List UserId
  receipts : Receipts

def Server.loop (w : Server ρ) : Label ρ → Option (Loop ρ)
  | .fan_out s answers =>
    match (w.sessions s).route with
    | some (.requested request) =>
      match request.plan (w.user s) answers with
      | some (some plan) => some ⟨s, ⟨w.next_no, plan.message⟩, plan.members, plan.receipts⟩
      | _ => none
    | _ => none
  | .lpushed s =>
    match (w.sessions s).route with
    | some (.waiting item _ rest receipts) => some ⟨s, item, rest, receipts⟩
    | _ => none
  | _ => none

/-- The users before the first who is not online: the loop serves them in the same step. -/
def Server.online (w : Server ρ) (members : List UserId) : List UserId :=
  members.takeWhile fun member_id => (w.lookup member_id).isSome

section Deliver

variable {w : Server ρ} {s t : ρ} {item : Item} {receipts : Receipts} {member_id : UserId}
  {members rest : List UserId}

omit [DecidableEq ρ] in
theorem online_cons (ht : w.lookup member_id = some t) :
    w.online (member_id :: rest) = member_id :: w.online rest := by
  simp [Server.online, ht]

omit [DecidableEq ρ] in
theorem online_subset : ∀ v ∈ w.online members, v ∈ members :=
  fun _ hv => List.takeWhile_subset _ hv

theorem lookup_deliver : (w.deliver s item receipts member_id t).lookup = w.lookup := by
  refine (congrArg Net.registry (view_deliver w s t item receipts member_id)).trans ?_
  cases w.reply s receipts <;> rfl

theorem run_deliver (t' : ρ) :
    ((w.deliver s item receipts member_id t).sessions t').run = (w.sessions t').run := by
  obtain ⟨posts, queue, hss⟩ := deliver_sessions w s t item receipts member_id t'
  rw [hss]

theorem online_deliver :
    (w.deliver s item receipts member_id t).online members = w.online members := by
  unfold Server.online
  rw [lookup_deliver]

theorem reply_deliver :
    (w.deliver s item receipts member_id t).reply s receipts = w.reply s receipts := by
  unfold Server.reply Server.user
  rw [lookup_deliver, run_deliver]

end Deliver

/-- What the moves of a loop are. -/
theorem mem_visit_moves {w : Server ρ} {s : ρ} {item : Item} {receipts : Receipts}
    {members : List UserId} {m : Move UserId ρ Item}
    (hm : m ∈ visit_moves s item receipts w members) :
    m = .end_send s ∨ m = .deliver s (w.reply s receipts) ∧ w.online members ≠ [] := by
  induction members generalizing w with
  | nil => exact .inl (List.mem_singleton.mp hm)
  | cons member_id rest ih =>
    rcases ht : w.lookup member_id with _ | t
    · simp [visit_moves, ht] at hm
    · simp only [visit_moves, ht] at hm
      have hne : w.online (member_id :: rest) ≠ [] := by simp [online_cons ht]
      rcases List.mem_cons.mp hm with rfl | hm
      · exact .inr ⟨rfl, hne⟩
      · rcases ih hm with rfl | ⟨rfl, _⟩
        · exact .inl rfl
        · exact .inr ⟨by rw [reply_deliver], hne⟩

theorem deliver_mem_visit_moves {w : Server ρ} {s : ρ} {item : Item} {receipts : Receipts}
    {members : List UserId} (hne : w.online members ≠ []) :
    .deliver s (w.reply s receipts) ∈ visit_moves s item receipts w members := by
  cases members with
  | nil => exact absurd rfl hne
  | cons member_id rest =>
    rcases ht : w.lookup member_id with _ | t
    · simp [Server.online, ht] at hne
    · simp [visit_moves, ht]

/-- A step with a loop makes one move, and then those of the loop. -/
theorem loop_moves {w : Server ρ} {l : Label ρ} {loop : Loop ρ} (hl : loop ∈ w.loop l)
    (verify : Bytes → Option UserId) : ∃ m w₁, moves verify w l =
      m :: visit_moves loop.session loop.item loop.receipts w₁ loop.members ∧
        w₁.lookup = w.lookup ∧ w₁.sessions = w.sessions ∧ ∀ s, m ≠ .wrote s := by
  cases l with
  | fan_out s answers =>
    simp only [Server.loop, Option.mem_def] at hl
    split at hl
    · rename_i request hroute
      split at hl
      · rename_i plan hplan
        obtain rfl := Option.some.inj hl
        exact ⟨.start_send s ⟨w.next_no, plan.message⟩ plan.members,
          { w with next_no := w.next_no + 1 },
          by simp only [moves, routing_moves, hroute, hplan], rfl, rfl, by simp⟩
      · simp at hl
    · simp at hl
  | lpushed s =>
    simp only [Server.loop, Option.mem_def] at hl
    split at hl
    · rename_i item member_id rest receipts hroute
      obtain rfl := Option.some.inj hl
      exact ⟨.store s, w.lpush item member_id, by simp only [moves, lpushed_moves, hroute], rfl,
        rfl, by simp⟩
    · simp at hl
  | _ => simp [Server.loop] at hl

section Meets

variable {w : Server ρ} {s : ρ} {item : Item} {receipts : Receipts} {members : List UserId}
  {verify : Bytes → Option UserId}
  {ok : Net UserId ρ Item → Move UserId ρ Item → Prop}

/-- The moves of a loop meet a condition that `P` gives for each delivery. -/
theorem visit_meets {P : Server ρ → List UserId → Prop}
    (hdeliver : ∀ w member_id rest t, P w (member_id :: rest) → w.lookup member_id = some t →
      ok (w.sending s item (member_id :: rest)) (.deliver s (w.reply s receipts)) ∧
        P (w.deliver s item receipts member_id t) rest)
    (hend : ∀ x, ok x (.end_send s)) (hP : P w members) :
    (net : Machine (Net UserId ρ Item) _).MeetsFrom ok (w.sending s item members)
      (visit_moves s item receipts w members) := by
  induction members generalizing w with
  | nil => exact ⟨hend _, fun _ _ => trivial⟩
  | cons member_id rest ih =>
    rcases ht : w.lookup member_id with _ | t
    · simp only [visit_moves, ht]
      trivial
    · simp only [visit_moves, ht]
      obtain ⟨hok, hP⟩ := hdeliver w member_id rest t hP ht
      refine ⟨hok, fun x hx => ?_⟩
      obtain rfl := Option.some.inj ((view_delivered ht).symm.trans hx)
      exact ih hP

theorem fan_out_meets {answers : Answers}
    (hloop : ∀ loop ∈ w.loop (.fan_out s answers),
      ok w.view (.start_send loop.session loop.item loop.members) ∧
        (net : Machine (Net UserId ρ Item) _).MeetsFrom ok
          (Server.sending { w with next_no := w.next_no + 1 } loop.session loop.item loop.members)
          (visit_moves loop.session loop.item loop.receipts { w with next_no := w.next_no + 1 }
            loop.members)) :
    (net : Machine (Net UserId ρ Item) _).MeetsFrom ok w.view
      (moves verify w (.fan_out s answers)) := by
  simp only [moves, routing_moves]
  split
  · rename_i request hroute
    split
    · rename_i plan hplan
      obtain ⟨hstart, hvisit⟩ := hloop ⟨s, ⟨w.next_no, plan.message⟩, plan.members, plan.receipts⟩
        (by simp [Server.loop, hroute, hplan])
      refine ⟨hstart, fun x hx => ?_⟩
      simp only [net, store_forward.machine, store_forward.step, Option.mem_def] at hx
      split_ifs at hx
      obtain rfl := Option.some.inj hx
      exact hvisit
    · trivial
  · trivial

theorem lpushed_meets
    (hloop : ∀ item member_id rest receipts,
      (w.sessions s).route = some (.waiting item member_id rest receipts) →
        ok w.view (.store s) ∧ (net : Machine (Net UserId ρ Item) _).MeetsFrom ok
          ((w.lpush item member_id).sending s item rest)
          (visit_moves s item receipts (w.lpush item member_id) rest)) :
    (net : Machine (Net UserId ρ Item) _).MeetsFrom ok w.view (moves verify w (.lpushed s)) := by
  simp only [moves, lpushed_moves]
  split
  · rename_i item member_id rest receipts hroute
    obtain ⟨hstore, hvisit⟩ := hloop item member_id rest receipts hroute
    refine ⟨hstore, fun x hx => ?_⟩
    have hs : w.view.sending s = some (item, member_id :: rest) := by
      change (w.sessions s).sending = _
      unfold ISession.sending
      rw [hroute]
    simp only [net, store_forward.machine, store_forward.step, hs, Option.mem_def] at hx
    obtain rfl := Option.some.inj hx
    exact hvisit
  · trivial

end Meets

/-! ## The other steps -/

section Others

variable {w w' : Server ρ} {s : ρ} {verify : Bytes → Option UserId}

/-- A move that concerns no message: a user comes or goes in the registry, or a notice. -/
def Aside : Move UserId ρ Item → Prop
  | .join _ _ | .forget _ | .post_notice _ | .push_notice _ => True
  | _ => False

theorem effects_moves_aside (es : List (Effect Stored)) : ∀ m ∈ effects_moves s w es, Aside m := by
  induction es generalizing w with
  | nil => simp [effects_moves]
  | cons e es ih =>
    intro m hm
    rcases List.mem_append.mp hm with hm | hm
    · cases e with
      | registry_insert user_id =>
        obtain rfl := List.mem_singleton.mp hm
        trivial
      | registry_remove user_id =>
        simp only [effect_moves] at hm
        split_ifs at hm
        · obtain rfl := List.mem_singleton.mp hm
          trivial
        · simp at hm
      | push_text j =>
        obtain rfl := List.mem_singleton.mp hm
        trivial
      | relay target_id message =>
        obtain ⟨t, _, rfl⟩ := List.mem_map.mp hm
        trivial
      | _ => simp [effect_moves] at hm
    · exact ih m hm

theorem notify_moves_aside (user_id : UserId) :
    ∀ m ∈ moves verify w (.notify user_id), Aside m := by
  intro m hm
  obtain ⟨t, _, rfl⟩ := List.mem_map.mp hm
  trivial

theorem notify_all_moves_aside (members : List UserId) :
    ∀ m ∈ notify_all_moves w members, Aside m := by
  induction members generalizing w with
  | nil => simp [notify_all_moves]
  | cons member_id rest ih =>
    intro m hm
    rcases ht : w.lookup member_id with _ | t
    · simp [notify_all_moves, ht] at hm
    · simp only [notify_all_moves, ht] at hm
      rcases List.mem_cons.mp hm with rfl | hm
      · trivial
      · exact ih m hm

theorem notify_meets {ok : Net UserId ρ Item → Move UserId ρ Item → Prop} {user_id : UserId}
    (haside : ∀ m, Aside m → ∀ x, ok x m) (x : Net UserId ρ Item) :
    (net : Machine (Net UserId ρ Item) _).MeetsFrom ok x (moves verify w (.notify user_id)) :=
  Machine.meetsFrom_of_forall (fun m hm => haside m (notify_moves_aside user_id m hm)) x

theorem notify_all_meets {ok : Net UserId ρ Item → Move UserId ρ Item → Prop}
    (haside : ∀ m, Aside m → ∀ x, ok x m) (members : List UserId) (x : Net UserId ρ Item) :
    (net : Machine (Net UserId ρ Item) _).MeetsFrom ok x (notify_all_moves w members) :=
  Machine.meetsFrom_of_forall (fun m hm => haside m (notify_all_moves_aside members m hm)) x

/-- The moves of a deletion that goes on: the store of its notice, and others aside. -/
theorem notice_lpushed_meets {ok : Net UserId ρ Item → Move UserId ρ Item → Prop} {k : Nat}
    (haside : ∀ m, Aside m → ∀ x, ok x m)
    (hstore : ∀ waiting ∈ w.deletions[k]?, ok w.view (.store_notice waiting.1)) :
    (net : Machine (Net UserId ρ Item) _).MeetsFrom ok w.view
      (moves verify w (.notice_lpushed k)) := by
  simp only [moves, notice_lpushed_moves]
  split
  · rename_i member_id rest hk
    exact ⟨hstore _ hk, fun x _ => notify_all_meets haside rest x⟩
  · trivial

theorem run_post_meets {ok : Net UserId ρ Item → Move UserId ρ Item → Prop}
    (htake : ok w.view (.take s)) :
    (net : Machine (Net UserId ρ Item) _).MeetsFrom ok w.view (moves verify w (.run_post s)) := by
  simp only [moves, run_post_moves]
  split
  · split_ifs
    · exact ⟨htake, fun _ _ => trivial⟩
    · trivial
  · trivial

theorem destroy_moves_aside : ∀ m ∈ moves verify w (.destroy s), Aside m := by
  intro m hm
  simp only [moves] at hm
  split_ifs at hm
  · obtain rfl := List.mem_singleton.mp hm
    trivial
  · simp at hm

theorem destroy_meets {ok : Net UserId ρ Item → Move UserId ρ Item → Prop}
    (haside : ∀ m, Aside m → ∀ x, ok x m) (x : Net UserId ρ Item) :
    (net : Machine (Net UserId ρ Item) _).MeetsFrom ok x (moves verify w (.destroy s)) :=
  Machine.meetsFrom_of_forall (fun m hm => haside m (destroy_moves_aside m hm)) x

/-- The moves of a segment: those of the flush, the end of `run()`, and others aside. -/
theorem resume_meets {ok : Net UserId ρ Item → Move UserId ρ Item → Prop} {ev : AnyEvent}
    (haside : ∀ m, Aside m → ∀ x, ok x m)
    (hflush : ∀ batch ∈ ev.batch, batch = (w.offline (w.user s)).reverse →
      ok w.view (.flush s (batch.takeWhile (w.sessions s).run.takes).length))
    (hclose : ∀ x seg, seg ∈ (w.sessions s).run.resume verify ev → seg.1.active = false →
      (net : Machine (Net UserId ρ Item) _).runFrom w.view (flush_moves s (w.sessions s).run ev) =
        some x → ok x (.close s))
    (h : Server.step verify w (.resume s ev) = some w') :
    (net : Machine (Net UserId ρ Item) _).MeetsFrom ok w.view
      (moves verify w (.resume s ev)) := by
  replace h := (step_eq_some.mp h).2
  simp only [Server.act] at h
  split_ifs at h
  obtain ⟨⟨run, effects⟩, hseg, h⟩ := Option.bind_eq_some_iff.mp h
  obtain ⟨w₀, hbegin, _⟩ := Option.map_eq_some_iff.mp h
  simp only [moves, resume_moves, hseg, hbegin]
  refine (Machine.meetsFrom_append _).mpr ⟨(Machine.meetsFrom_append _).mpr ⟨?_, ?_⟩, ?_⟩
  · unfold flush_moves
    split
    · rename_i batch hb
      refine ⟨hflush batch hb ?_, fun _ _ => trivial⟩
      simp only [Server.begin_segment, hb] at hbegin
      by_contra hne
      simp [hne] at hbegin
    · trivial
  · intro x hx
    unfold close_moves
    split_ifs with hact
    · trivial
    · exact ⟨hclose x _ hseg (by simpa using hact) hx, fun _ _ => trivial⟩
  · intro x _
    exact Machine.meetsFrom_of_forall
      (fun m hm => haside m (effects_moves_aside effects m hm)) x

end Others

end loomic.server
