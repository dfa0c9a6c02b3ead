-- Patterns with wildcards over any alphabet: an item stands for one letter, for any one letter
-- or for any word.
import Mathlib.Data.List.Infix

namespace patterns

inductive Item (α : Type*)
  | lit (a : α)
  | one
  | any
  deriving DecidableEq

variable {α : Type*} [DecidableEq α]

/-- The word as a whole is matched. -/
def fits : List (Item α) → List α → Bool
  | [], s => s.isEmpty
  | .lit a :: p, s =>
    match s with
    | [] => false
    | b :: s => a = b && fits p s
  | .one :: p, s =>
    match s with
    | [] => false
    | _ :: s => fits p s
  | .any :: p, s => s.tails.any (fits p)

/-- The items that stand for one letter, and for this one. -/
def Item.Accepts : Item α → α → Prop
  | .lit a, b => a = b
  | .one, _ => True
  | .any, _ => False

def Item.literal : Item α → Option α
  | .lit a => some a
  | .one => none
  | .any => none

theorem fits_any_iff {p : List (Item α)} {s : List α} :
    fits (.any :: p) s = true ↔ ∃ t, t <:+ s ∧ fits p t = true := by
  simp [fits, List.mem_tails]

@[simp] theorem fits_any (s : List α) : fits [.any] s = true :=
  fits_any_iff.2 ⟨[], List.nil_suffix, by simp [fits]⟩

/-- A word of accepted letters in front, and the rest of the pattern behind it. -/
theorem fits_append {p p' : List (Item α)} {w t : List α} (hw : List.Forall₂ Item.Accepts p w)
    (ht : fits p' t = true) : fits (p ++ p') (w ++ t) = true := by
  induction hw with
  | nil => exact ht
  | @cons item a p w haccepts _ ih =>
    cases item with
    | lit b =>
      have hb : b = a := haccepts
      simpa [fits, hb] using ih
    | one => simpa [fits] using ih
    | any => exact haccepts.elim

/-- A pattern of letters is a prefix. -/
theorem fits_prefix_iff {w s : List α} : fits (w.map .lit ++ [.any]) s = true ↔ w <+: s := by
  induction w generalizing s with
  | nil => simp
  | cons a w ih =>
    cases s with
    | nil => simp [fits]
    | cons b s => simp [fits, ih]

/-- The letters of a pattern stand in the word, in their order. -/
theorem literals_sublist {p : List (Item α)} {s : List α} (h : fits p s = true) :
    (p.filterMap Item.literal).Sublist s := by
  induction p generalizing s with
  | nil => simp
  | cons item p ih =>
    cases item with
    | lit a =>
      cases s with
      | nil => simp [fits] at h
      | cons b s =>
        simp only [fits, Bool.and_eq_true, decide_eq_true_eq] at h
        obtain ⟨rfl, htail⟩ := h
        simpa [Item.literal] using ih htail
    | one =>
      cases s with
      | nil => simp [fits] at h
      | cons b s =>
        simp only [fits] at h
        exact (ih h).cons b
    | any =>
      obtain ⟨t, hsuffix, hfits⟩ := fits_any_iff.1 h
      exact (ih hfits).trans hsuffix.sublist

end patterns
