-- What TextDecoder makes of the bytes that TextEncoder wrote: the same text, but
-- for a byte order mark at its start.
import Loomic.ChatFrames

open loomic.chat_frames loomic.frame loomic.json

namespace loomic.text_decoding

/-! ## Byte by byte -/

theorem toNat_byte {n : Nat} (h : n < 256) : (UInt8.ofNat n).toNat = n := by
  rw [UInt8.toNat_ofNat', Nat.mod_eq_of_lt h]

/-- The bits of a byte under its mark. -/
theorem low_bits (bits : Nat) {low mark : Nat} (h : low < 2 ^ bits) (hmark : mark % 2 ^ bits = 0) :
    (low + mark) &&& (2 ^ bits - 1) = low := by
  rw [Nat.and_two_pow_sub_one_eq_mod, Nat.add_mod, hmark, Nat.add_zero, Nat.mod_mod,
    Nat.mod_eq_of_lt h]

theorem push_bits {low : Nat} (code_point : Nat) (h : low < 64) :
    code_point <<< 6 ||| low = code_point * 64 + low := by
  rw [Nat.shiftLeft_eq, Nat.mul_comm]
  exact (Nat.two_pow_add_eq_or_of_lt (i := 6) h code_point).symm

theorem decode_first_one {v : Nat} (h : v ≤ 0x7F) :
    decode_first (UInt8.ofNat v) = ([Char.ofNat v], {}) := by
  have hbyte := toNat_byte (show v < 256 by omega)
  unfold decode_first
  rw [if_pos (by simpa [UInt8.le_iff_toNat_le, hbyte] using h), hbyte]

theorem decode_first_two {lead : Nat} (h2 : 2 ≤ lead) (h : lead < 32) :
    decode_first (UInt8.ofNat (lead + 0xC0)) = ([], { code_point := lead, needed := 1 }) := by
  have hbyte := toNat_byte (show lead + 0xC0 < 256 by omega)
  have hlow : (lead + 0xC0) &&& 0x1F = lead := low_bits 5 h rfl
  unfold decode_first
  rw [if_neg (by simp [UInt8.le_iff_toNat_le]; omega),
    if_pos (by simp [UInt8.le_iff_toNat_le]; omega), hbyte, hlow]

theorem decode_first_three {lead : Nat} (h : lead < 16) :
    decode_first (UInt8.ofNat (lead + 0xE0)) =
      ([], { code_point := lead
             needed := 2
             lower := if lead = 0 then 0xA0 else 0x80
             upper := if lead = 13 then 0x9F else 0xBF }) := by
  have hbyte := toNat_byte (show lead + 0xE0 < 256 by omega)
  have hlow : (lead + 0xE0) &&& 0xF = lead := low_bits 4 h rfl
  have hlower : UInt8.ofNat (lead + 0xE0) = 0xE0 ↔ lead = 0 := by
    rw [← UInt8.toNat_inj, hbyte]
    simp
  have hupper : UInt8.ofNat (lead + 0xE0) = 0xED ↔ lead = 13 := by
    rw [← UInt8.toNat_inj, hbyte]
    simp
  unfold decode_first
  rw [if_neg (by simp [UInt8.le_iff_toNat_le]; omega),
    if_neg (by simp [UInt8.le_iff_toNat_le]; omega),
    if_pos (by simp [UInt8.le_iff_toNat_le]; omega), hbyte, hlow]
  simp only [hlower, hupper]

theorem decode_first_four {lead : Nat} (h : lead < 5) :
    decode_first (UInt8.ofNat (lead + 0xF0)) =
      ([], { code_point := lead
             needed := 3
             lower := if lead = 0 then 0x90 else 0x80
             upper := if lead = 4 then 0x8F else 0xBF }) := by
  have hbyte := toNat_byte (show lead + 0xF0 < 256 by omega)
  have hlow : (lead + 0xF0) &&& 0x7 = lead := low_bits 3 (by omega) rfl
  have hlower : UInt8.ofNat (lead + 0xF0) = 0xF0 ↔ lead = 0 := by
    rw [← UInt8.toNat_inj, hbyte]
    simp
  have hupper : UInt8.ofNat (lead + 0xF0) = 0xF4 ↔ lead = 4 := by
    rw [← UInt8.toNat_inj, hbyte]
    simp
  unfold decode_first
  rw [if_neg (by simp [UInt8.le_iff_toNat_le]; omega),
    if_neg (by simp [UInt8.le_iff_toNat_le]; omega),
    if_neg (by simp [UInt8.le_iff_toNat_le]; omega),
    if_pos (by simp [UInt8.le_iff_toNat_le]; omega), hbyte, hlow]
  simp only [hlower, hupper]

section Continuation

variable {state : DecoderState} {low : Nat}

/-- A byte that continues a character adds six bits to it. -/
theorem decode_next_continues (hneeded : state.needed ≠ 0) (h : low < 64)
    (hlower : state.lower.toNat ≤ low + 0x80) (hupper : low + 0x80 ≤ state.upper.toNat) :
    decode_next state (UInt8.ofNat (low + 0x80)) =
      if state.needed = 1 then ([Char.ofNat (state.code_point * 64 + low)], {})
      else ([], { code_point := state.code_point * 64 + low, needed := state.needed - 1 }) := by
  have hbyte := toNat_byte (show low + 0x80 < 256 by omega)
  have hlow : (low + 0x80) &&& 0x3F = low := low_bits 6 h rfl
  have hinside : ¬ (UInt8.ofNat (low + 0x80) < state.lower ∨
      state.upper < UInt8.ofNat (low + 0x80)) := by
    simp only [UInt8.lt_iff_toNat_lt, hbyte]
    omega
  unfold decode_next
  rw [if_neg hneeded, if_neg hinside]
  dsimp only
  rw [hbyte, hlow, push_bits _ h]

end Continuation

theorem decode_bytes_cons (state : DecoderState) (byte : UInt8) (rest : Bytes) :
    decode_bytes state (byte :: rest) =
      (decode_next state byte).1 ++ decode_bytes (decode_next state byte).2 rest := rfl

/-- The last byte of a character ends it. -/
theorem decode_last {state : DecoderState} {low : Nat} (hneeded : state.needed = 1)
    (h : low < 64) (hlower : state.lower.toNat ≤ low + 0x80)
    (hupper : low + 0x80 ≤ state.upper.toNat) (rest : Bytes) :
    decode_bytes state (UInt8.ofNat (low + 0x80) :: rest) =
      Char.ofNat (state.code_point * 64 + low) :: decode_bytes {} rest := by
  rw [decode_bytes_cons, decode_next_continues (by omega) h hlower hupper, if_pos hneeded]
  rfl

theorem decode_middle {state : DecoderState} {low : Nat} (hneeded : 2 ≤ state.needed)
    (h : low < 64) (hlower : state.lower.toNat ≤ low + 0x80)
    (hupper : low + 0x80 ≤ state.upper.toNat) (rest : Bytes) :
    decode_bytes state (UInt8.ofNat (low + 0x80) :: rest) =
      decode_bytes
        { code_point := state.code_point * 64 + low, needed := state.needed - 1 } rest := by
  rw [decode_bytes_cons, decode_next_continues (by omega) h hlower hupper, if_neg (by omega)]
  rfl

/-- The first byte of a character of several bytes. -/
theorem decode_lead {byte : UInt8} {state : DecoderState} (h : decode_first byte = ([], state))
    (rest : Bytes) : decode_bytes {} (byte :: rest) = decode_bytes state rest := by
  have hnext : decode_next {} byte = decode_first byte := rfl
  rw [decode_bytes_cons, hnext, h]
  rfl

/-! ## Character by character -/

theorem toNat_valid (c : Char) :
    c.toNat < 0xD800 ∨ 0xDFFF < c.toNat ∧ c.toNat < 0x110000 := c.valid

theorem decode_encode (c : Char) (rest : Bytes) :
    decode_bytes {} (String.utf8EncodeChar c ++ rest) = c :: decode_bytes {} rest := by
  have hvalid := toNat_valid c
  have hchar : Char.ofNat c.toNat = c := Char.ofNat_toNat c
  have hval : c.val.toNat = c.toNat := rfl
  unfold String.utf8EncodeChar
  rw [hval]
  dsimp only
  split
  · rename_i h1
    have hfirst := decode_first_one h1
    rw [hchar] at hfirst
    have hnext : decode_next {} (UInt8.ofNat c.toNat) = decode_first (UInt8.ofNat c.toNat) := rfl
    rw [List.singleton_append, decode_bytes_cons, hnext, hfirst]
    rfl
  split
  · rw [List.cons_append, List.cons_append, List.nil_append,
      decode_lead (decode_first_two (by omega) (by omega)),
      decode_last rfl (by omega) (by simp) (by simp; omega)]
    have hpoint : c.toNat / 64 % 0x20 * 64 + c.toNat % 0x40 = c.toNat := by omega
    rw [hpoint, hchar]
  split
  · have hpoint : (c.toNat / 4096 % 0x10 * 64 + c.toNat / 64 % 0x40) * 64 + c.toNat % 0x40 =
        c.toNat := by omega
    -- The bounds of the second byte leave out the long forms and the surrogates.
    rw [List.cons_append, List.cons_append, List.cons_append, List.nil_append,
      decode_lead (decode_first_three (by omega)),
      decode_middle (by simp) (by omega) (by dsimp only; split <;> simp; omega)
        (by dsimp only; split <;> simp <;> omega),
      decode_last rfl (by omega) (by simp) (by simp; omega)]
    rw [hpoint, hchar]
  · have hpoint : ((c.toNat / 262144 % 0x08 * 64 + c.toNat / 4096 % 0x40) * 64 +
        c.toNat / 64 % 0x40) * 64 + c.toNat % 0x40 = c.toNat := by omega
    rw [List.cons_append, List.cons_append, List.cons_append, List.cons_append, List.nil_append,
      decode_lead (decode_first_four (by omega)),
      decode_middle (by simp) (by omega) (by dsimp only; split <;> simp; omega)
        (by dsimp only; split <;> simp <;> omega),
      decode_middle (by simp) (by omega) (by simp) (by simp; omega),
      decode_last rfl (by omega) (by simp) (by simp; omega)]
    rw [hpoint, hchar]

theorem decode_bytes_encode (s : String) : decode_bytes {} (bytes s) = s.toList := by
  rw [bytes_eq_flatMap]
  induction s.toList with
  | nil => rfl
  | cons c cs ih => rw [List.flatMap_cons, decode_encode, ih]

def BYTE_ORDER_MARK : Char := '\uFEFF'

/-- A text that does not start with the mark comes back. -/
theorem text_decode_bytes {s : String} (h : s.toList.head? ≠ some BYTE_ORDER_MARK) :
    text_decode (bytes s) = s := by
  have hmark : (bytes s).take 3 ≠ [0xEF, 0xBB, 0xBF] := by
    intro htake
    have hdecode := decode_bytes_encode s
    rw [← List.take_append_drop 3 (bytes s), htake] at hdecode
    apply h
    rw [← hdecode]
    rfl
  unfold text_decode
  rw [if_neg hmark, decode_bytes_encode, String.ofList_toList]

end loomic.text_decoding
