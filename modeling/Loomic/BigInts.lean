-- `BigInt` of a string, as the gateway reads ids with it: decimal digits with or without a
-- sign, digits of another base behind a prefix, and white space around them.
import Loomic.ReceiptGuesses

open loomic.receipt_guesses

namespace loomic.big_ints

def digit_of (c : Char) : Option Nat :=
  if '0' ≤ c ∧ c ≤ '9' then some (c.toNat - '0'.toNat)
  else if 'a' ≤ c ∧ c ≤ 'f' then some (c.toNat - 'a'.toNat + 10)
  else if 'A' ≤ c ∧ c ≤ 'F' then some (c.toNat - 'A'.toNat + 10)
  else none

def push_digit (base n : Nat) (c : Char) : Option Nat :=
  (digit_of c).bind fun d => if d < base then some (base * n + d) else none

/-- At least one digit, and nothing else. -/
def digits_in (base : Nat) (s : List Char) : Option Nat :=
  if s = [] then none else s.foldlM (push_digit base) 0

/-- `none` is the `SyntaxError`. -/
def big_int (s : String) : Option Int :=
  match (trim s).toList with
  | [] => some 0
  | '0' :: 'x' :: digits | '0' :: 'X' :: digits => (digits_in 16 digits).map Int.ofNat
  | '0' :: 'o' :: digits | '0' :: 'O' :: digits => (digits_in 8 digits).map Int.ofNat
  | '0' :: 'b' :: digits | '0' :: 'B' :: digits => (digits_in 2 digits).map Int.ofNat
  | '-' :: digits => (digits_in 10 digits).map fun n => -n
  | '+' :: digits => (digits_in 10 digits).map Int.ofNat
  | digits => (digits_in 10 digits).map Int.ofNat

/-! ## Decimal digits -/

/-- `/^\d+$/`. -/
def is_decimal (s : String) : Bool := s ≠ "" ∧ s.toList.all Char.isDigit

/-- The number that the digits denote. -/
def decimal (s : String) : Nat := Nat.ofDigitChars 10 s.toList 0

theorem push_decimal {c : Char} (h : c.isDigit = true) (n : Nat) :
    push_digit 10 n c = some (10 * n + (c.toNat - '0'.toNat)) := by
  have hrange : '0' ≤ c ∧ c ≤ '9' := by
    simp only [Char.isDigit, Bool.and_eq_true, decide_eq_true_eq] at h
    exact h
  have hnat : c.toNat ≤ '9'.toNat := hrange.2
  have hnine : '9'.toNat = 57 := rfl
  have hzero : '0'.toNat = 48 := rfl
  unfold push_digit digit_of
  rw [if_pos hrange, Option.bind_some, if_pos (by omega)]

theorem digits_in_ten {s : List Char} (hne : s ≠ []) (h : ∀ c ∈ s, c.isDigit = true) :
    digits_in 10 s = some (Nat.ofDigitChars 10 s 0) := by
  have hfold : ∀ n, s.foldlM (push_digit 10) n = some (Nat.ofDigitChars 10 s n) := by
    clear hne
    induction s with
    | nil => exact fun n => rfl
    | cons c s ih =>
      intro n
      rw [List.foldlM_cons, push_decimal (h c List.mem_cons_self)]
      exact ih (fun d hd => h d (List.mem_cons_of_mem c hd)) _
  unfold digits_in
  rw [if_neg hne, hfold]

theorem not_space_of_digit {c : Char} (h : c.isDigit = true) : is_space c = false := by
  have hrange : 48 ≤ c.toNat ∧ c.toNat ≤ 57 := by
    unfold Char.isDigit at h
    simpa [Char.le_def, UInt32.le_iff_toNat_le] using h
  unfold is_space
  simp
  omega

theorem trim_digits {s : String} (h : ∀ c ∈ s.toList, c.isDigit = true) : trim s = s := by
  have hkeep : ∀ l : List Char, (∀ c ∈ l, c.isDigit = true) → l.dropWhile is_space = l := by
    intro l hl
    cases l with
    | nil => rfl
    | cons c l =>
      rw [List.dropWhile_cons_of_neg]
      rw [not_space_of_digit (hl c List.mem_cons_self)]
      decide
  unfold trim
  rw [hkeep _ h, hkeep _ (fun c hc => h c (List.mem_reverse.mp hc)), List.reverse_reverse,
    String.ofList_toList]

/-- Digits are read as the number that they denote, however many they are. -/
theorem big_int_digits {s : String} (h : is_decimal s = true) :
    big_int s = some (decimal s : Int) := by
  unfold is_decimal at h
  simp only [decide_eq_true_eq, List.all_eq_true] at h
  obtain ⟨hne, hdigits⟩ := h
  have hlist : s.toList ≠ [] := fun hnil => hne (String.toList_eq_nil_iff.mp hnil)
  have hread : (digits_in 10 s.toList).map Int.ofNat = some (decimal s : Int) := by
    rw [digits_in_ten hlist hdigits]
    rfl
  unfold big_int
  rw [trim_digits hdigits]
  revert hread hdigits hlist
  generalize s.toList = l
  intro hlist hdigits hread
  -- Each case but the last has no digit, or a character that is none.
  split <;> simp_all

theorem is_decimal_toString (n : Nat) : is_decimal (toString n) = true := by
  have hlist : (toString n).toList = Nat.toDigits 10 n := Nat.toList_repr
  unfold is_decimal
  rw [hlist, decide_eq_true_eq, List.all_eq_true]
  exact ⟨loomic.json.toString_ne_empty n, fun c hc =>
    Nat.isDigit_of_mem_toDigits (by decide) (by decide) hc⟩

theorem decimal_toString (n : Nat) : decimal (toString n) = n := by
  have hlist : (toString n).toList = Nat.toDigits 10 n := Nat.toList_repr
  unfold decimal
  rw [hlist]
  exact Nat.ofDigitChars_ten_toDigits

theorem big_int_toString (n : Nat) : big_int (toString n) = some (n : Int) := by
  rw [big_int_digits (is_decimal_toString n), decimal_toString]

end loomic.big_ints
