-- Machines: a start state and, for each label, a partial step. A run takes
-- the labels of a list one by one. The rules below carry an invariant along
-- every run, or along the runs whose steps all meet a condition.
import Mathlib.Data.List.Induction

namespace machines

/-- A start state, and the state that a label leads to, if it can be taken. -/
structure Machine (σ α : Type*) where
  start : σ
  step : σ → α → Option σ

variable {σ α : Type*} (M : Machine σ α)

/-- The state after the labels, from state `s`. -/
def Machine.runFrom : σ → List α → Option σ
  | s, [] => some s
  | s, a :: as => (M.step s a).bind fun s' => Machine.runFrom s' as

def Machine.run (as : List α) : Option σ := M.runFrom M.start as

/-- Every step that the labels take from `s` meets `ok` in the state it is taken from. -/
def Machine.MeetsFrom (ok : σ → α → Prop) : σ → List α → Prop
  | _, [] => True
  | s, a :: as => ok s a ∧ ∀ s' ∈ M.step s a, Machine.MeetsFrom ok s' as

def Machine.Meets (ok : σ → α → Prop) (as : List α) : Prop := M.MeetsFrom ok M.start as

instance Machine.decidableMeetsFrom (ok : σ → α → Prop) [∀ s a, Decidable (ok s a)] :
    ∀ s as, Decidable (M.MeetsFrom ok s as)
  | _, [] => isTrue trivial
  | s, a :: as =>
    have : Decidable (∀ s' ∈ M.step s a, M.MeetsFrom ok s' as) :=
      match h : M.step s a with
      | none => isTrue fun s' hs => by simp at hs
      | some s' =>
        have := Machine.decidableMeetsFrom ok s' as
        decidable_of_iff (M.MeetsFrom ok s' as) (by simp)
    inferInstanceAs (Decidable (_ ∧ _))

instance (ok : σ → α → Prop) [∀ s a, Decidable (ok s a)] (as : List α) :
    Decidable (M.Meets ok as) := M.decidableMeetsFrom ok M.start as

@[simp] theorem Machine.runFrom_nil (s : σ) : M.runFrom s [] = some s := rfl

@[simp] theorem Machine.run_nil : M.run [] = some M.start := rfl

theorem Machine.runFrom_append (s : σ) (as bs : List α) :
    M.runFrom s (as ++ bs) = (M.runFrom s as).bind fun s' => M.runFrom s' bs := by
  induction as generalizing s with
  | nil => rfl
  | cons a as ih =>
    simp only [List.cons_append, Machine.runFrom, Option.bind_assoc]
    congr 1
    funext s'
    exact ih s'

/-- The last step of a run. -/
theorem Machine.run_snoc (as : List α) (a : α) :
    M.run (as ++ [a]) = (M.run as).bind fun s => M.step s a := by
  rw [Machine.run, Machine.runFrom_append]
  congr 1
  funext s
  simp [Machine.runFrom]

theorem Machine.run_snoc_some {as : List α} {a : α} {s' : σ} :
    M.run (as ++ [a]) = some s' ↔ ∃ s, M.run as = some s ∧ M.step s a = some s' := by
  rw [Machine.run_snoc, Option.bind_eq_some_iff]

theorem Machine.run_step {as : List α} {a : α} {s s' : σ} (hr : M.run as = some s)
    (hs : M.step s a = some s') : M.run (as ++ [a]) = some s' :=
  M.run_snoc_some.mpr ⟨s, hr, hs⟩

theorem Machine.meetsFrom_append {ok : σ → α → Prop} {s : σ} {as bs : List α} :
    M.MeetsFrom ok s (as ++ bs) ↔
      M.MeetsFrom ok s as ∧ ∀ s' ∈ M.runFrom s as, M.MeetsFrom ok s' bs := by
  induction as generalizing s with
  | nil => simp [Machine.MeetsFrom]
  | cons a as ih =>
    simp only [List.cons_append, Machine.MeetsFrom, Machine.runFrom, ih, Option.mem_def,
      Option.bind_eq_some_iff]
    grind

/-- The last step of a run that meets a condition. -/
theorem Machine.meets_snoc {ok : σ → α → Prop} {as : List α} {a : α} :
    M.Meets ok (as ++ [a]) ↔ M.Meets ok as ∧ ∀ s ∈ M.run as, ok s a := by
  rw [Machine.Meets, Machine.meetsFrom_append]
  simp [Machine.MeetsFrom, Machine.Meets, Machine.run]

variable {M}

/-- What holds at the start, and of a longer run when it holds of the run before its last
step, holds of every run, together with the labels that it took. -/
theorem Machine.run_induction {I : List α → σ → Prop} (h0 : I [] M.start)
    (hstep : ∀ as s a s', M.run as = some s → I as s → M.step s a = some s' →
      I (as ++ [a]) s') {as : List α} {s : σ} (hr : M.run as = some s) : I as s := by
  induction as using List.reverseRecOn generalizing s with
  | nil =>
    rw [Machine.run_nil, Option.some.injEq] at hr
    exact hr ▸ h0
  | append_singleton as a ih =>
    obtain ⟨s₀, hr₀, hs⟩ := M.run_snoc_some.mp hr
    exact hstep as s₀ a s hr₀ (ih hr₀) hs

/-- An invariant of every step that meets `ok` is kept by labels that meet it, from wherever
they are taken. -/
theorem Machine.runFrom_invariant_of_meets {ok : σ → α → Prop} {I : σ → Prop}
    (hstep : ∀ s a s', I s → ok s a → M.step s a = some s' → I s') {as : List α} {s s' : σ}
    (hm : M.MeetsFrom ok s as) (hs : I s) (hr : M.runFrom s as = some s') : I s' := by
  induction as generalizing s with
  | nil => exact Option.some.inj hr ▸ hs
  | cons a as ih =>
    obtain ⟨hok, hm⟩ := hm
    obtain ⟨s₁, h₁, hr⟩ := Option.bind_eq_some_iff.mp hr
    exact ih (hm s₁ h₁) (hstep s a s₁ hs hok h₁) hr

/-- An invariant of every step that meets `ok` holds after every run that meets it. -/
theorem Machine.invariant_of_meets {ok : σ → α → Prop} {I : σ → Prop} (h0 : I M.start)
    (hstep : ∀ s a s', I s → ok s a → M.step s a = some s' → I s') {as : List α} {s : σ}
    (hm : M.Meets ok as) (hr : M.run as = some s) : I s :=
  Machine.runFrom_invariant_of_meets hstep hm h0 hr

theorem Machine.meetsFrom_of_forall {ok : σ → α → Prop} {as : List α}
    (hok : ∀ a ∈ as, ∀ s, ok s a) (s : σ) : M.MeetsFrom ok s as := by
  induction as generalizing s with
  | nil => trivial
  | cons a as ih =>
    refine ⟨hok a List.mem_cons_self s, fun s' _ => ?_⟩
    exact ih (fun b hb => hok b (List.mem_cons_of_mem a hb)) s'

/-- Each label of a run that meets a condition meets it somewhere. -/
theorem Machine.exists_of_meetsFrom {ok : σ → α → Prop} {as : List α} {s s' : σ}
    (hm : M.MeetsFrom ok s as) (hr : M.runFrom s as = some s') : ∀ a ∈ as, ∃ t, ok t a := by
  induction as generalizing s with
  | nil => simp
  | cons a as ih =>
    obtain ⟨hok, hm⟩ := hm
    obtain ⟨s₁, h₁, hr⟩ := Option.bind_eq_some_iff.mp hr
    intro b hb
    rcases List.mem_cons.mp hb with rfl | hb
    · exact ⟨s, hok⟩
    · exact ih (hm s₁ h₁) hr b hb

/-- An invariant of every step is kept by all labels, from wherever they are taken. -/
theorem Machine.runFrom_invariant {I : σ → Prop}
    (hstep : ∀ s a s', I s → M.step s a = some s' → I s') {as : List α} {s s' : σ} (hs : I s)
    (hr : M.runFrom s as = some s') : I s' :=
  Machine.runFrom_invariant_of_meets (fun s a s' hs _ h => hstep s a s' hs h)
    (Machine.meetsFrom_of_forall (fun _ _ _ => trivial) s) hs hr

/-- An invariant of every step holds after every run. -/
theorem Machine.invariant {I : σ → Prop} (h0 : I M.start)
    (hstep : ∀ s a s', I s → M.step s a = some s' → I s') {as : List α} {s : σ}
    (hr : M.run as = some s) : I s :=
  Machine.runFrom_invariant hstep h0 hr

/-- A condition that keeps an invariant, and without which `P` fails at once, says exactly
which runs go through `P` states only. -/
theorem Machine.always_iff_meets {ok : σ → α → Prop} {I P : σ → Prop} (h0 : I M.start)
    (hstep : ∀ s a s', I s → ok s a → M.step s a = some s' → I s') (hP : ∀ s, I s → P s)
    (hbad : ∀ s a s', I s → M.step s a = some s' → P s' → ok s a) {as : List α} {s : σ}
    (hr : M.run as = some s) :
    (∀ bs s', bs <+: as → M.run bs = some s' → P s') ↔ M.Meets ok as := by
  constructor
  · intro hall
    revert hall
    refine Machine.run_induction
      (I := fun as _ => (∀ bs s', bs <+: as → M.run bs = some s' → P s') → M.Meets ok as)
      (fun _ => trivial) ?_ hr
    intro as s a s' hr hi hs hall
    have hm := hi fun bs s' hb => hall bs s' (hb.trans (List.prefix_append as [a]))
    refine M.meets_snoc.mpr ⟨hm, fun t ht => ?_⟩
    obtain rfl : s = t := Option.some.inj (hr.symm.trans ht)
    have hI : I s := Machine.invariant_of_meets h0 hstep hm hr
    exact hbad s a s' hI hs (hall _ s' (List.prefix_refl _) (M.run_snoc_some.mpr ⟨s, hr, hs⟩))
  · rintro hm bs s' ⟨cs, rfl⟩ hb
    exact hP s' (Machine.invariant_of_meets h0 hstep (M.meetsFrom_append.mp hm).1 hb)

/-! ## Simulation -/

section Simulation

variable {τ β : Type*} {N : Machine τ β} {ok : σ → α → Prop} {ok' : τ → β → Prop}

/-- When the steps of `M` are seen as runs of `N`, the runs of `M` are, too. What the runs for
its steps meet, they meet. -/
theorem Machine.simulation {J : σ → Prop} {view : σ → τ} {moves : σ → α → List β}
    (h0 : view M.start = N.start) (hJ0 : J M.start)
    (hJ : ∀ s a s', J s → M.step s a = some s' → J s')
    (hstep : ∀ s a s', J s → M.step s a = some s' →
      N.runFrom (view s) (moves s a) = some (view s'))
    (hok : ∀ s a s', J s → ok s a → M.step s a = some s' →
      N.MeetsFrom ok' (view s) (moves s a))
    {as : List α} {s : σ} (hm : M.Meets ok as) (hr : M.run as = some s) :
    ∃ bs, N.run bs = some (view s) ∧ N.Meets ok' bs := by
  revert hm
  refine Machine.run_induction
    (I := fun as s => M.Meets ok as → ∃ bs, N.run bs = some (view s) ∧ N.Meets ok' bs) ?_ ?_ hr
  · intro _
    exact ⟨[], by rw [Machine.run_nil, h0], trivial⟩
  · intro as s a s' hr ih hs hm
    obtain ⟨hm₀, hlast⟩ := M.meets_snoc.mp hm
    obtain ⟨bs, hbs, hmeets⟩ := ih hm₀
    have hJs : J s := Machine.invariant hJ0 hJ hr
    refine ⟨bs ++ moves s a, ?_, ?_⟩
    · rw [Machine.run, Machine.runFrom_append]
      change (N.run bs).bind _ = _
      rw [hbs]
      exact hstep s a s' hJs hs
    · rw [Machine.Meets, Machine.meetsFrom_append]
      refine ⟨hmeets, fun t ht => ?_⟩
      obtain rfl : view s = t := Option.some.inj (hbs.symm.trans ht)
      exact hok s a s' hJs (hlast s hr) hs

end Simulation

end machines
