-- Percent encoding. The characters that an encoder does not keep are written as the octets of
-- their UTF-8, each as a percent sign and two digits, and the decoder puts the octets back.
import Mathlib.Data.List.Basic

namespace percent_codes

/-! ## Octets -/

def hex_digit (n : Nat) : Char := "0123456789ABCDEF".toList.getD n '0'

/-- Digits of either case are read. -/
def digit_value (c : Char) : Option Nat :=
  if c.isDigit then some (c.toNat - '0'.toNat)
  else if 'a' ≤ c ∧ c ≤ 'f' then some (c.toNat - 'a'.toNat + 10)
  else if 'A' ≤ c ∧ c ≤ 'F' then some (c.toNat - 'A'.toNat + 10)
  else none

def code (octet : UInt8) : List Char :=
  ['%', hex_digit (octet.toNat / 16), hex_digit (octet.toNat % 16)]

/-- The characters of a code. -/
def in_code (c : Char) : Bool := c = '%' ∨ c.isDigit ∨ 'A' ≤ c ∧ c ≤ 'F'

theorem digit_value_hex_digit {n : Nat} (h : n < 16) : digit_value (hex_digit n) = some n := by
  have hall : ∀ k : Fin 16, digit_value (hex_digit k) = some k.val := by decide
  exact hall ⟨n, h⟩

theorem in_code_hex_digit {n : Nat} (h : n < 16) : in_code (hex_digit n) = true := by
  have hall : ∀ k : Fin 16, in_code (hex_digit k) = true := by decide
  exact hall ⟨n, h⟩

theorem in_code_of_mem {c : Char} {octet : UInt8} (h : c ∈ code octet) : in_code c = true := by
  have hlt := octet.toNat_lt
  simp only [code, List.mem_cons, List.not_mem_nil, or_false] at h
  rcases h with rfl | rfl | rfl
  · decide
  · exact in_code_hex_digit (by omega)
  · exact in_code_hex_digit (by omega)

/-! ## Encoding -/

def encode_char (keep : Char → Bool) (c : Char) : List Char :=
  if keep c then [c] else (String.utf8EncodeChar c).flatMap code

def encode (keep : Char → Bool) (s : List Char) : List Char := s.flatMap (encode_char keep)

@[simp] theorem encode_nil (keep : Char → Bool) : encode keep [] = [] := by simp [encode]

@[simp] theorem encode_cons (keep : Char → Bool) (c : Char) (s : List Char) :
    encode keep (c :: s) = encode_char keep c ++ encode keep s := by simp [encode]

theorem encode_append (keep : Char → Bool) (s t : List Char) :
    encode keep (s ++ t) = encode keep s ++ encode keep t := by simp [encode]

theorem encode_of_kept {keep : Char → Bool} {s : List Char} (h : ∀ c ∈ s, keep c = true) :
    encode keep s = s := by
  induction s with
  | nil => simp
  | cons c s ih =>
    rw [encode_cons, ih fun d hd => h d (List.mem_cons_of_mem c hd), encode_char,
      if_pos (h c List.mem_cons_self), List.singleton_append]

/-- A character of an encoded text is kept, or stands in a code. -/
theorem mem_encode {keep : Char → Bool} {c : Char} {s : List Char} (h : c ∈ encode keep s) :
    keep c = true ∨ in_code c = true := by
  obtain ⟨d, -, hd⟩ := List.mem_flatMap.1 h
  unfold encode_char at hd
  split at hd
  · rename_i hkeep
    rw [List.mem_singleton] at hd
    exact .inl (hd ▸ hkeep)
  · obtain ⟨octet, -, hoctet⟩ := List.mem_flatMap.1 hd
    exact .inr (in_code_of_mem hoctet)

theorem not_mem_encode {keep : Char → Bool} {c : Char} (s : List Char) (hkeep : keep c = false)
    (hcode : in_code c = false) : c ∉ encode keep s := by
  intro h
  rcases mem_encode h with h | h
  · simp [hkeep] at h
  · simp [hcode] at h

/-- An encoder behind another one: what both keep is kept, if the second keeps the codes. -/
theorem encode_encode {keep keep' : Char → Bool} (hcode : ∀ c, in_code c = true → keep' c = true)
    (s : List Char) :
    encode keep' (encode keep s) = encode (fun c => keep c && keep' c) s := by
  induction s with
  | nil => simp
  | cons c s ih =>
    rw [encode_cons, encode_append, ih, encode_cons]
    congr 1
    by_cases hkeep : keep c = true
    · simp [encode_char, hkeep]
    · have hkept : ∀ d ∈ (String.utf8EncodeChar c).flatMap code, keep' d = true := by
        intro d hd
        obtain ⟨octet, -, hoctet⟩ := List.mem_flatMap.1 hd
        exact hcode d (in_code_of_mem hoctet)
      simp [encode_char, hkeep, encode_of_kept hkept]

/-! ## Decoding -/

/-- A percent sign without two digits behind it stands for itself. -/
def decode : List Char → List UInt8
  | '%' :: a :: b :: s =>
    match digit_value a, digit_value b with
    | some high, some low => UInt8.ofNat (16 * high + low) :: decode s
    | _, _ => 0x25 :: decode (a :: b :: s)
  | c :: s => String.utf8EncodeChar c ++ decode s
  | [] => []

theorem decode_cons {c : Char} (h : c ≠ '%') (s : List Char) :
    decode (c :: s) = String.utf8EncodeChar c ++ decode s := by
  rw [decode.eq_def]
  split
  · rename_i heq
    exact absurd (List.cons.inj heq).1 h
  · rename_i heq
    obtain ⟨rfl, rfl⟩ := List.cons.inj heq
    rfl
  · rename_i heq
    cases heq

theorem decode_code (octet : UInt8) (s : List Char) :
    decode (code octet ++ s) = octet :: decode s := by
  have hlt := octet.toNat_lt
  have hoctet : UInt8.ofNat (16 * (octet.toNat / 16) + octet.toNat % 16) = octet := by
    rw [Nat.div_add_mod, UInt8.ofNat_toNat]
  simp only [code, List.cons_append, List.nil_append, decode,
    digit_value_hex_digit (show octet.toNat / 16 < 16 by omega),
    digit_value_hex_digit (show octet.toNat % 16 < 16 by omega), hoctet]

theorem decode_codes (octets : List UInt8) (s : List Char) :
    decode (octets.flatMap code ++ s) = octets ++ decode s := by
  induction octets with
  | nil => simp
  | cons octet octets ih =>
    rw [List.flatMap_cons, List.append_assoc, decode_code, ih, List.cons_append]

/-- The decoder undoes every encoder that does not keep the percent sign. -/
theorem decode_encode {keep : Char → Bool} (hpercent : keep '%' = false) (s t : List Char) :
    decode (encode keep s ++ t) = s.flatMap String.utf8EncodeChar ++ decode t := by
  induction s with
  | nil => simp
  | cons c s ih =>
    rw [encode_cons, List.append_assoc, List.flatMap_cons, List.append_assoc, ← ih, encode_char]
    split
    · rename_i hkeep
      exact decode_cons (fun heq => by simp [heq, hpercent] at hkeep) _
    · exact decode_codes _ _

/-- A text without a percent sign stands for its own octets. -/
theorem decode_plain {s : List Char} (h : '%' ∉ s) :
    decode s = s.flatMap String.utf8EncodeChar := by
  have hkeep : ∀ c ∈ s, decide (c ≠ '%') = true := fun c hc =>
    decide_eq_true fun heq => h (heq ▸ hc)
  have hdecode := @decode_encode (fun c => decide (c ≠ '%')) (by decide) s []
  rw [encode_of_kept hkeep, List.append_nil] at hdecode
  simpa [decode] using hdecode

end percent_codes
