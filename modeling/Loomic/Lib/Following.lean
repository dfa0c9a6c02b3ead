-- Lists of entries with keys and ranks. A step may move entries, add some and give
-- some a new key. Each entry is followed by its key, and its rank never goes down.
import Mathlib.Data.List.Nodup
import Mathlib.Logic.Function.Basic

namespace following

variable {α κ ρ σ : Type*}

/-! ## Keys -/

section Keys

variable {key : α → κ} {l₁ l₂ : List α} {a b : α}

/-- An entry is replaced under its own key or a new one. -/
theorem nodup_replace (h : ((l₁ ++ a :: l₂).map key).Nodup)
    (hb : key b = key a ∨ key b ∉ (l₁ ++ a :: l₂).map key) :
    ((l₁ ++ b :: l₂).map key).Nodup := by
  rw [List.map_append, List.map_cons, List.nodup_middle, List.nodup_cons] at h ⊢
  rw [List.map_append, List.map_cons, List.mem_append, List.mem_cons] at hb
  refine ⟨?_, h.2⟩
  rcases hb with hsame | hnew
  · rw [hsame]
    exact h.1
  · rw [List.mem_append]
    tauto

theorem nodup_append_one {l : List α} (h : (l.map key).Nodup) (hb : key b ∉ l.map key) :
    ((l ++ [b]).map key).Nodup := by
  rw [List.map_append, List.map_singleton, ← List.concat_eq_append]
  exact h.concat hb

end Keys

/-! ## One step -/

variable (key : α → κ) (rank : α → ρ) [LE ρ]

/-- Each entry is there afterwards, under the key that it has then and with no smaller rank. -/
def Rises (rename : κ → κ) (l l' : List α) : Prop :=
  ∀ a ∈ l, ∃ b ∈ l', key b = rename (key a) ∧ rank a ≤ rank b

variable {key rank} {rename : κ → κ} {l l' l'' : List α}

theorem Rises.perm (h : Rises key rank rename l l') (hperm : l''.Perm l') :
    Rises key rank rename l l'' := by
  intro a ha
  obtain ⟨b, hb, hkey, hrank⟩ := h a ha
  exact ⟨b, hperm.mem_iff.mpr hb, hkey, hrank⟩

theorem rises_map {f : α → α} (hkey : ∀ a ∈ l, key (f a) = key a)
    (hrank : ∀ a ∈ l, rank a ≤ rank (f a)) : Rises key rank id l (l.map f) :=
  fun a ha => ⟨f a, List.mem_map_of_mem ha, hkey a ha, hrank a ha⟩

variable [Std.IsPreorder ρ]

theorem rises_refl (l : List α) : Rises key rank id l l :=
  fun a ha => ⟨a, ha, rfl, Std.le_refl _⟩

theorem Rises.trans {rename' : κ → κ} (h : Rises key rank rename l l')
    (h' : Rises key rank rename' l' l'') : Rises key rank (rename' ∘ rename) l l'' := by
  intro a ha
  obtain ⟨b, hb, hkey, hrank⟩ := h a ha
  obtain ⟨c, hc, hkey', hrank'⟩ := h' b hb
  exact ⟨c, hc, by rw [hkey', hkey, Function.comp], Std.le_trans hrank hrank'⟩

theorem rises_append (l more : List α) : Rises key rank id l (l ++ more) :=
  fun a ha => ⟨a, List.mem_append_left _ ha, rfl, Std.le_refl _⟩

/-- Only the replaced entry has its key, so no other entry is followed to the new one. -/
theorem rises_replace [DecidableEq κ] {l₁ l₂ : List α} {a b : α}
    (hdistinct : ((l₁ ++ a :: l₂).map key).Nodup) (hrank : rank a ≤ rank b) :
    Rises key rank (Function.update id (key a) (key b)) (l₁ ++ a :: l₂) (l₁ ++ b :: l₂) := by
  rw [List.map_append, List.map_cons, List.nodup_middle, List.nodup_cons, List.mem_append,
    not_or] at hdistinct
  have hother : ∀ c ∈ l₁ ++ l₂, ∃ d ∈ l₁ ++ b :: l₂,
      key d = Function.update id (key a) (key b) (key c) ∧ rank c ≤ rank d := by
    intro c hc
    have hne : key c ≠ key a := by
      intro heq
      rcases List.mem_append.mp hc with hc | hc
      · exact hdistinct.1.1 (heq ▸ List.mem_map_of_mem hc)
      · exact hdistinct.1.2 (heq ▸ List.mem_map_of_mem hc)
    refine ⟨c, ?_, by rw [Function.update_of_ne hne]; rfl, Std.le_refl _⟩
    rcases List.mem_append.mp hc with hc | hc <;> simp [hc]
  intro c hc
  rcases List.mem_append.mp hc with hc | hc
  · exact hother c (List.mem_append_left _ hc)
  · rcases List.mem_cons.mp hc with rfl | hc
    · exact ⟨b, by simp, by rw [Function.update_self], hrank⟩
    · exact hother c (List.mem_append_right _ hc)

theorem rises_replace_same {l₁ l₂ : List α} {a b : α} (hkey : key b = key a)
    (hrank : rank a ≤ rank b) : Rises key rank id (l₁ ++ a :: l₂) (l₁ ++ b :: l₂) := by
  intro c hc
  rcases List.mem_append.mp hc with hc | hc
  · exact ⟨c, by simp [hc], rfl, Std.le_refl _⟩
  · rcases List.mem_cons.mp hc with rfl | hc
    · exact ⟨b, by simp, hkey, hrank⟩
    · exact ⟨c, by simp [hc], rfl, Std.le_refl _⟩

/-! ## A run -/

section Run

variable {step : List α → σ → List α} {follow : List α → σ → κ → κ} {I : List α → Prop}

/-- Where a key goes in a run. -/
def follow_run (step : List α → σ → List α) (follow : List α → σ → κ → κ) :
    List α → List σ → κ → κ
  | _, [] => id
  | l, s :: steps => follow_run step follow (step l s) steps ∘ follow l s

variable (key rank) in
theorem rises_run (hkeep : ∀ l s, I l → I (step l s))
    (hstep : ∀ l s, I l → Rises key rank (follow l s) l (step l s)) (steps : List σ)
    (hl : I l) :
    I (steps.foldl step l) ∧
      Rises key rank (follow_run step follow l steps) l (steps.foldl step l) := by
  induction steps generalizing l with
  | nil => exact ⟨hl, rises_refl l⟩
  | cons s steps ih =>
    obtain ⟨hrest, hrises⟩ := ih (hkeep l s hl)
    exact ⟨hrest, (hstep l s hl).trans hrises⟩

end Run

end following
