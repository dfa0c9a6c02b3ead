-- What the registry is for: at each time a user has at most one current
-- session, the one that was inserted last and has been neither destroyed nor
-- taken out since. `lookup` gives it, in whatever order sessions come and go.
import Loomic.SessionRegistry
import Mathlib.Data.List.Induction

open loomic.frame loomic.session_registry

namespace loomic.current_sessions

variable {ρ : Type} [DecidableEq ρ]

/-- What happens to the registry. `remove` is given a pointer, which stands for the session that
lives there. -/
inductive Label (ρ : Type)
  | insert (user_id : UserId) (s : ρ)
  | lookup (user_id : UserId)
  | remove (user_id : UserId) (expected : Option ρ)
  | destroy (s : ρ)

structure State (ρ : Type) where
  registry : SessionRegistry ρ
  alive : ρ → Bool

def State.start : State ρ := { registry := .empty, alive := fun _ => true }

def State.lookup (st : State ρ) (user_id : UserId) : Option ρ :=
  st.registry.lookup st.alive user_id

/-- `lookup` leaves the registry as it is. -/
def State.step (st : State ρ) : Label ρ → State ρ
  | .insert user_id s => { st with registry := st.registry.insert user_id s }
  | .lookup _ => st
  | .remove user_id expected =>
    { st with registry := st.registry.remove st.alive user_id expected }
  | .destroy s => { st with alive := Function.update st.alive s false }

def run (as : List (Label ρ)) : State ρ := as.foldl State.step .start

theorem run_snoc (as : List (Label ρ)) (a : Label ρ) : run (as ++ [a]) = (run as).step a := by
  unfold run
  rw [List.foldl_append]
  rfl

/-! ## The current session -/

/-- The user gets another session, or none, or the session is taken out. -/
def Label.Ends (user_id : UserId) (s : ρ) : Label ρ → Prop
  | .insert u _ => u = user_id
  | .remove u expected => u = user_id ∧ (expected = none ∨ expected = some s)
  | _ => False

/-- The session of the last insert for the user, which nobody has taken out since. -/
def Inserted (as : List (Label ρ)) (user_id : UserId) (s : ρ) : Prop :=
  ∃ before after, as = before ++ .insert user_id s :: after ∧
    ∀ a ∈ after, ¬ a.Ends user_id s

/-- Such a session that is still alive. -/
def Current (as : List (Label ρ)) (user_id : UserId) (s : ρ) : Prop :=
  Inserted as user_id s ∧ .destroy s ∉ as

/-- The user whom an operation is for. -/
def Label.user : Label ρ → Option UserId
  | .insert user_id _ => some user_id
  | .lookup user_id => some user_id
  | .remove user_id _ => some user_id
  | .destroy _ => none

section Steps

variable {as : List (Label ρ)} {a : Label ρ} {st : State ρ} {u v : UserId} {s t : ρ}

omit [DecidableEq ρ] in
theorem inserted_snoc :
    Inserted (as ++ [a]) u s ↔ a = .insert u s ∨ Inserted as u s ∧ ¬ a.Ends u s := by
  constructor
  · rintro ⟨before, after, heq, hafter⟩
    rcases List.eq_nil_or_concat after with rfl | ⟨after, b, rfl⟩
    · obtain ⟨_, ha⟩ := List.append_inj' heq rfl
      exact .inl (List.singleton_inj.mp ha)
    · have hsplit : as ++ [a] = (before ++ .insert u s :: after) ++ [b] := by simpa using heq
      obtain ⟨has, hb⟩ := List.append_inj' hsplit rfl
      obtain rfl := List.singleton_inj.mp hb
      refine .inr ⟨⟨before, after, has, fun c hc => ?_⟩, ?_⟩
      · exact hafter c (by simp [hc])
      · exact hafter a (by simp)
  · rintro (rfl | ⟨⟨before, after, rfl, hafter⟩, ha⟩)
    · exact ⟨as, [], rfl, fun _ h => absurd h List.not_mem_nil⟩
    · refine ⟨before, after ++ [a], by simp, fun c hc => ?_⟩
      rcases List.mem_append.mp hc with hc | hc
      · exact hafter c hc
      · rw [List.mem_singleton.mp hc]
        exact ha

/-- What a removal leaves of a session that lives. -/
theorem map_remove_alive {reg : SessionRegistry ρ} {alive : ρ → Bool} {expected : Option ρ}
    (hs : alive s = true) : (reg.remove alive u expected).map v = some s ↔
      reg.map v = some s ∧ ¬ (Label.remove u expected).Ends v s := by
  unfold SessionRegistry.remove Label.Ends
  by_cases hv : u = v
  · subst hv
    rcases hm : reg.map u with _ | c
    · simp [hm]
    · cases expected with
      | none => simp
      | some t =>
        dsimp only
        split_ifs with hc
        · obtain ⟨_, rfl⟩ := hc
          simp
        · rw [hm]
          simp only [Option.some.injEq, false_or, true_and]
          refine ⟨fun hcs => ⟨hcs, fun hts => hc ⟨hcs ▸ hs, hcs.trans hts.symm⟩⟩, And.left⟩
  · have hother : (Function.update reg.map u none) v = reg.map v :=
      Function.update_of_ne (Ne.symm hv) _ _
    split
    · simp [hv]
    · simp [hv, hother]
    · split_ifs <;> simp [hv, hother]

end Steps

/-! ## The law -/

/-- The map has, among the sessions that live, those that were inserted last. -/
structure Follows (as : List (Label ρ)) (st : State ρ) : Prop where
  alive : ∀ s, st.alive s = true ↔ .destroy s ∉ as
  map : ∀ u s, st.alive s = true → (st.registry.map u = some s ↔ Inserted as u s)

theorem follows_step {as : List (Label ρ)} {st : State ρ} (h : Follows as st) (a : Label ρ) :
    Follows (as ++ [a]) (st.step a) := by
  cases a with
  | insert v t =>
    refine ⟨fun s => ?_, fun u s hs => ?_⟩
    · simpa [State.step] using h.alive s
    · rw [inserted_snoc, ← h.map u s hs]
      dsimp only [State.step]
      rw [map_insert]
      by_cases huv : u = v
      · subst huv
        simp [Label.Ends]
      · simp [Label.Ends, huv, Ne.symm huv]
  | lookup v =>
    refine ⟨fun s => ?_, fun u s hs => ?_⟩
    · simpa [State.step] using h.alive s
    · rw [inserted_snoc, ← h.map u s hs]
      simp [State.step, Label.Ends]
  | remove v expected =>
    refine ⟨fun s => ?_, fun u s hs => ?_⟩
    · simpa [State.step] using h.alive s
    · rw [inserted_snoc, ← h.map u s hs]
      simpa [State.step] using map_remove_alive hs
  | destroy t =>
    refine ⟨fun s => ?_, fun u s hs => ?_⟩
    · by_cases hst : s = t
      · simp [State.step, hst]
      · simpa [State.step, hst] using h.alive s
    · have hold : st.alive s = true := by
        by_cases hst : s = t
        · simp [State.step, hst] at hs
        · simpa [State.step, hst] using hs
      rw [inserted_snoc, ← h.map u s hold]
      simp [State.step, Label.Ends]

theorem follows_run (as : List (Label ρ)) : Follows as (run as) := by
  induction as using List.reverseRecOn with
  | nil =>
    refine ⟨fun s => by simp [run, State.start], fun u s _ => ?_⟩
    simp [run, State.start, SessionRegistry.empty, Inserted]
  | append_singleton as a ih =>
    rw [run_snoc]
    exact follows_step ih a

theorem lookup_iff_current (as : List (Label ρ)) (u : UserId) (s : ρ) :
    (run as).lookup u = some s ↔ Current as u s := by
  have h := follows_run as
  unfold State.lookup Current
  rw [lookup_eq_some, ← h.alive s]
  constructor
  · rintro ⟨hmap, hs⟩
    exact ⟨(h.map u s hs).mp hmap, hs⟩
  · rintro ⟨hins, hs⟩
    exact ⟨(h.map u s hs).mpr hins, hs⟩

omit [DecidableEq ρ] in
theorem current_snoc {as : List (Label ρ)} {a : Label ρ} {u : UserId} {s : ρ} :
    Current (as ++ [a]) u s ↔
      (a = .insert u s ∨ Inserted as u s ∧ ¬ a.Ends u s) ∧ .destroy s ∉ as ∧ a ≠ .destroy s := by
  unfold Current
  rw [inserted_snoc, List.mem_append, List.mem_singleton, not_or, ne_comm]

theorem lookup_eq_of_current {as bs : List (Label ρ)} {u : UserId}
    (h : ∀ s, Current as u s ↔ Current bs u s) : (run as).lookup u = (run bs).lookup u := by
  apply Option.ext
  intro s
  rw [lookup_iff_current, lookup_iff_current, h]

/-- Whatever has happened, `lookup` gives the current session; operations for one user leave the
answers for the others as they are; and a session that was superseded takes nobody out but
itself. -/
theorem the_registry_meets_its_specification :
    (∀ (as : List (Label ρ)) u s, (run as).lookup u = some s ↔ Current as u s) ∧
    (∀ (as : List (Label ρ)) a u v, a.user = some u → v ≠ u →
      (run (as ++ [a])).lookup v = (run as).lookup v) ∧
    ∀ (as : List (Label ρ)) u s t, (run as).lookup u = some s → t ≠ s →
      (run (as ++ [.remove u (some t)])).lookup u = some s := by
  refine ⟨lookup_iff_current, fun as a u v hu hv => ?_, fun as u s t hs hts => ?_⟩
  · apply lookup_eq_of_current
    intro s
    rw [current_snoc, Current]
    have hne := hv.symm
    cases a with
    | destroy t => cases hu
    | _ =>
      obtain rfl := Option.some.inj hu
      simp [Label.Ends, hne]
  · rw [lookup_iff_current] at hs ⊢
    rw [current_snoc]
    obtain ⟨hins, halive⟩ := hs
    refine ⟨.inr ⟨hins, ?_⟩, halive, by simp⟩
    rintro ⟨_, hnone | hsome⟩
    · cases hnone
    · exact hts (Option.some.inj hsome)

/-- A user connects again before the cleanup of his first session is through. -/
theorem a_user_who_comes_back_is_found :
    (run ([.insert 7 0, .insert 7 1] ++ [.remove 7 (some 0)])).lookup 7 = some 1 :=
  the_registry_meets_its_specification.2.2 [.insert 7 0, .insert 7 1] 7 1 0 (by decide) (by decide)

end loomic.current_sessions
