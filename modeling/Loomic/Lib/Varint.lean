-- Numbers of any size as bytes of seven bits, the lowest first. Every byte
-- but the last has its highest bit set. A reader takes at most a given number
-- of bytes.
import Mathlib.Data.Nat.Bitwise

namespace varint

def encode (n : Nat) : List UInt8 :=
  if n < 128 then [UInt8.ofNat n] else UInt8.ofNat (n % 128 + 128) :: encode (n / 128)
termination_by n
decreasing_by omega

/-- The number at the start of the bytes, shifted and added to `value`, and what follows. -/
def read : (limit shift value : Nat) → List UInt8 → Option (Nat × List UInt8)
  | 0, _, _, _ => none
  | _ + 1, _, _, [] => none
  | limit + 1, shift, value, byte :: bytes =>
    let value := value ||| (byte.toNat &&& 0x7f) <<< shift
    if byte.toNat &&& 0x80 = 0 then some (value, bytes) else read limit (shift + 7) value bytes

/-! ## Seven bits at a time -/

theorem low_bits (n : Nat) : n &&& 0x7f = n % 128 := Nat.and_two_pow_sub_one_eq_mod n 7

theorem high_bit {n : Nat} (h : n < 256) : n &&& 0x80 = 0 ↔ n < 128 := by
  have hand : n &&& 0x80 = (n.testBit 7).toNat * 128 := Nat.and_two_pow n 7
  rw [hand, Nat.testBit_eq_decide_div_mod_eq]
  by_cases hlow : n < 128
  · simp [hlow, Nat.div_eq_of_lt hlow]
  · have hdiv : n / 128 % 2 = 1 := by omega
    simp [hlow, hdiv]

theorem shiftLeft_split (n shift : Nat) :
    (n % 128) <<< shift ||| (n / 128) <<< (shift + 7) = n <<< shift := by
  have hsplit : n % 128 ||| (n / 128) <<< 7 = n := by
    rw [Nat.or_comm, Nat.shiftLeft_eq, Nat.mul_comm,
      ← Nat.two_pow_add_eq_or_of_lt (Nat.mod_lt n (by decide : 0 < 2 ^ 7))]
    omega
  rw [Nat.add_comm shift 7, Nat.shiftLeft_add, ← Nat.shiftLeft_or_distrib, hsplit]

theorem length_encode {limit n : Nat} (h : n < 128 ^ (limit + 1)) :
    (encode n).length ≤ limit + 1 := by
  induction limit generalizing n with
  | zero =>
    rw [encode, if_pos (by omega)]
    simp
  | succ limit ih =>
    rw [encode]
    split
    · simp
    · have hdiv : n / 128 < 128 ^ (limit + 1) :=
        Nat.div_lt_of_lt_mul (by rwa [Nat.pow_succ, Nat.mul_comm] at h)
      have hle := ih hdiv
      rw [List.length_cons]
      omega

theorem read_last {limit shift value n : Nat} (h : n < 128) (rest : List UInt8) :
    read (limit + 1) shift value (UInt8.ofNat n :: rest) = some (value ||| n <<< shift, rest) := by
  have hbyte : (UInt8.ofNat n).toNat = n := by
    rw [UInt8.toNat_ofNat']
    omega
  unfold read
  rw [hbyte, if_pos ((high_bit (by omega)).mpr h), low_bits, Nat.mod_eq_of_lt h]

theorem read_more {limit shift value n : Nat} (h : n < 128) (rest : List UInt8) :
    read (limit + 1) shift value (UInt8.ofNat (n + 128) :: rest) =
      read limit (shift + 7) (value ||| n <<< shift) rest := by
  have hbyte : (UInt8.ofNat (n + 128)).toNat = n + 128 := by
    rw [UInt8.toNat_ofNat']
    omega
  have hlow : (n + 128) % 128 = n := by omega
  have hhigh : ¬ (n + 128) &&& 0x80 = 0 := by
    rw [high_bit (by omega)]
    omega
  rw [read, hbyte, if_neg hhigh, low_bits, hlow]

/-- What is written is read back, whatever follows it. -/
theorem read_encode {limit shift value n : Nat} (h : n < 128 ^ (limit + 1)) (rest : List UInt8) :
    read (limit + 1) shift value (encode n ++ rest) = some (value ||| n <<< shift, rest) := by
  induction limit generalizing shift value n with
  | zero =>
    have hlast : n < 128 := by omega
    rw [encode, if_pos hlast]
    exact read_last hlast rest
  | succ limit ih =>
    rw [encode]
    split
    · rename_i hlast
      exact read_last hlast rest
    · have hdiv : n / 128 < 128 ^ (limit + 1) :=
        Nat.div_lt_of_lt_mul (by rwa [Nat.pow_succ, Nat.mul_comm] at h)
      rw [List.cons_append, read_more (Nat.mod_lt n (by decide)), ih hdiv, Nat.or_assoc,
        shiftLeft_split]

/-- A reader takes at least one byte. -/
theorem read_shortens {limit shift value n : Nat} {bytes rest : List UInt8}
    (h : read limit shift value bytes = some (n, rest)) : rest.length < bytes.length := by
  induction limit generalizing shift value bytes with
  | zero => cases h
  | succ limit ih =>
    cases bytes with
    | nil => cases h
    | cons byte bytes =>
      unfold read at h
      dsimp only at h
      rw [List.length_cons]
      split at h
      · obtain ⟨rfl, rfl⟩ := Prod.mk.inj (Option.some.inj h)
        omega
      · have hlt := ih h
        omega

/-- What follows a number that is there is not read. -/
theorem read_stable {limit shift value n : Nat} {bytes rest : List UInt8} (more : List UInt8)
    (h : read limit shift value bytes = some (n, rest)) :
    read limit shift value (bytes ++ more) = some (n, rest ++ more) := by
  induction limit generalizing shift value bytes with
  | zero => cases h
  | succ limit ih =>
    cases bytes with
    | nil => cases h
    | cons byte bytes =>
      rw [List.cons_append]
      unfold read at h ⊢
      dsimp only at h ⊢
      split at h
      · rename_i hlast
        obtain ⟨rfl, rfl⟩ := Prod.mk.inj (Option.some.inj h)
        rw [if_pos hlast]
      · rename_i hlast
        rw [if_neg hlast]
        exact ih h

end varint
