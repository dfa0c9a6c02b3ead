-- The decimal texts of integers are numbers of JSON.
import Loomic.Lib.JsonTexts
import Mathlib.Data.List.TakeWhile

namespace json_texts

/-! ## Digits -/

theorem digitChar_ne_zero {n : Nat} (hpos : 0 < n) (h : n < 10) : n.digitChar ≠ '0' := by
  have hall : ∀ k < 10, 0 < k → Nat.digitChar k ≠ '0' := by decide
  exact hall n h hpos

/-- A positive number starts with another digit than 0. -/
theorem toDigits_head {n : Nat} (hpos : 0 < n) :
    ∃ c s, Nat.toDigits 10 n = c :: s ∧ c ≠ '0' := by
  induction n using Nat.strongRecOn with
  | ind n ih =>
    rw [Nat.toDigits_eq_if (by decide)]
    split
    · rename_i hlt
      exact ⟨_, _, rfl, digitChar_ne_zero hpos hlt⟩
    · obtain ⟨c, s, hdigits, hc⟩ := ih (n / 10) (by omega) (by omega)
      exact ⟨c, s ++ [Nat.digitChar (n % 10)], by rw [hdigits, List.cons_append], hc⟩

theorem isDigit_of_mem {n : Nat} {c : Char} (h : c ∈ Nat.toDigits 10 n) : c.isDigit = true :=
  Nat.isDigit_of_mem_toDigits (by decide) (by decide) h

theorem is_unsigned_digits {c : Char} {s : List Char} (hc : c ≠ '0')
    (h : ∀ d ∈ c :: s, d.isDigit = true) : is_unsigned (c :: s) = true := by
  have hrest : s.dropWhile Char.isDigit = [] :=
    List.dropWhile_eq_nil_iff.mpr fun d hd => h d (List.mem_cons_of_mem c hd)
  rw [is_unsigned.eq_2 _ _ (fun hzero => hc hzero), hrest, h c List.mem_cons_self]
  rfl

theorem is_unsigned_toDigits (n : Nat) : is_unsigned (Nat.toDigits 10 n) = true := by
  rcases Nat.eq_zero_or_pos n with rfl | hpos
  · rfl
  · obtain ⟨c, s, hdigits, hc⟩ := toDigits_head hpos
    rw [hdigits]
    exact is_unsigned_digits hc fun d hd => isDigit_of_mem (hdigits ▸ hd)

theorem is_number_toDigits (n : Nat) : is_number (Nat.toDigits 10 n) = true := by
  rw [is_number.eq_2]
  · exact is_unsigned_toDigits n
  · intro s hs
    have hdigit : ('-' : Char).isDigit = true := isDigit_of_mem (n := n) (hs ▸ List.mem_cons_self)
    revert hdigit
    decide

theorem all_number_char (n : Nat) : (Nat.toDigits 10 n).all number_char = true := by
  refine List.all_eq_true.mpr fun c hc => ?_
  rw [number_char, isDigit_of_mem hc, Bool.true_or]

/-! ## Integers -/

/-- The number whose text has the digits, and a sign if it is negative. -/
def Number.of_int : Int → Number
  | .ofNat n => ⟨Nat.toDigits 10 n, all_number_char n, is_number_toDigits n⟩
  | .negSucc n => ⟨'-' :: Nat.toDigits 10 (n + 1), by
      rw [List.all_cons, all_number_char]
      rfl, is_unsigned_toDigits (n + 1)⟩

theorem of_int_text (n : Int) : (Number.of_int n).text = (toString n).toList := by
  cases n with
  | ofNat n => exact Nat.toList_repr.symm
  | negSucc n =>
    have htext : toString (Int.negSucc n) = "-" ++ toString (n + 1) := rfl
    rw [htext, String.toList_append]
    exact congrArg ('-' :: ·) Nat.toList_repr.symm

end json_texts
