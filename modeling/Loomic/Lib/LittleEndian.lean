-- Numbers as bytes, the lowest byte first, in a field of a fixed width.
-- A width and a number give the bytes, and the bytes give the number back
-- when it fits the width.
import Mathlib.Tactic.Ring

namespace little_endian

/-- The `width` lowest bytes of `n`. -/
def bytesOf : Nat → Nat → List UInt8
  | 0, _ => []
  | width + 1, n => UInt8.ofNat n :: bytesOf width (n / 256)

/-- The number that the bytes hold. -/
def numberOf : List UInt8 → Nat
  | [] => 0
  | b :: bytes => b.toNat + 256 * numberOf bytes

@[simp] theorem length_bytesOf (width n : Nat) : (bytesOf width n).length = width := by
  induction width generalizing n with
  | zero => rfl
  | succ width ih => simp [bytesOf, ih]

theorem numberOf_bytesOf (width n : Nat) (h : n < 256 ^ width) :
    numberOf (bytesOf width n) = n := by
  induction width generalizing n with
  | zero => simp only [pow_zero, Nat.lt_one_iff] at h; simp [bytesOf, numberOf, h]
  | succ width ih =>
    have hdiv : n / 256 < 256 ^ width :=
      Nat.div_lt_of_lt_mul (by rwa [pow_succ, Nat.mul_comm] at h)
    rw [bytesOf, numberOf, ih _ hdiv, UInt8.toNat_ofNat']
    omega

theorem numberOf_lt (bytes : List UInt8) : numberOf bytes < 256 ^ bytes.length := by
  induction bytes with
  | nil => simp [numberOf]
  | cons b bytes ih =>
    have hb := b.toNat_lt
    rw [numberOf, List.length_cons, pow_succ]
    omega

/-- Every field of the width is the bytes of its number. -/
theorem bytesOf_numberOf (bytes : List UInt8) :
    bytesOf bytes.length (numberOf bytes) = bytes := by
  induction bytes with
  | nil => rfl
  | cons b bytes ih =>
    have hb := b.toNat_lt
    have hlow : UInt8.ofNat (b.toNat + 256 * numberOf bytes) = b := by
      apply UInt8.toNat_inj.mp
      rw [UInt8.toNat_ofNat']
      omega
    have hhigh : (b.toNat + 256 * numberOf bytes) / 256 = numberOf bytes := by omega
    rw [List.length_cons, numberOf, bytesOf, hlow, hhigh, ih]

end little_endian
