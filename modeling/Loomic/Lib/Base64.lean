-- Base64: three bytes as four characters of six bits, with and without padding,
-- and readers that differ in what else they allow.
import Mathlib.Data.List.Basic

namespace base64

abbrev Bytes := List UInt8

/-! ## Alphabets -/

/-- A character for each value of six bits, and how it is read back. `=` is none of them. -/
structure Alphabet where
  char : Nat → Char
  value : Char → Option Nat
  value_char : ∀ v < 64, value (char v) = some v
  value_pad : value '=' = none

/-- Letters, digits, and two characters more. -/
def char_with (c62 c63 : Char) (v : Nat) : Char :=
  if v < 26 then Char.ofNat (0x41 + v)
  else if v < 52 then Char.ofNat (0x61 + (v - 26))
  else if v < 62 then Char.ofNat (0x30 + (v - 52))
  else if v = 62 then c62 else c63

def value_with (c62 c63 : Char) (c : Char) : Option Nat :=
  if 0x41 ≤ c.toNat ∧ c.toNat ≤ 0x5A then some (c.toNat - 0x41)
  else if 0x61 ≤ c.toNat ∧ c.toNat ≤ 0x7A then some (c.toNat - 0x61 + 26)
  else if 0x30 ≤ c.toNat ∧ c.toNat ≤ 0x39 then some (c.toNat - 0x30 + 52)
  else if c = c62 then some 62
  else if c = c63 then some 63
  else none

def standard : Alphabet where
  char := char_with '+' '/'
  value := value_with '+' '/'
  value_char := by decide
  value_pad := by decide

/-- The alphabet for URLs and file names. -/
def url : Alphabet where
  char := char_with '-' '_'
  value := value_with '-' '_'
  value_char := by decide
  value_pad := by decide

/-! ## Six bits and eight -/

/-- The values of the bytes. Bits that are missing at the end are 0. -/
def sextets : Bytes → List Nat
  | b₀ :: b₁ :: b₂ :: bs =>
    b₀.toNat / 4 :: (b₀.toNat % 4 * 16 + b₁.toNat / 16) ::
      (b₁.toNat % 16 * 4 + b₂.toNat / 64) :: (b₂.toNat % 64) :: sextets bs
  | [b₀, b₁] => [b₀.toNat / 4, b₀.toNat % 4 * 16 + b₁.toNat / 16, b₁.toNat % 16 * 4]
  | [b₀] => [b₀.toNat / 4, b₀.toNat % 4 * 16]
  | [] => []

/-- The bytes of the values. Bits that make no byte are dropped. -/
def octets : List Nat → Bytes
  | v₀ :: v₁ :: v₂ :: v₃ :: vs =>
    UInt8.ofNat (v₀ * 4 + v₁ / 16) :: UInt8.ofNat (v₁ % 16 * 16 + v₂ / 4) ::
      UInt8.ofNat (v₂ % 4 * 64 + v₃) :: octets vs
  | [v₀, v₁, v₂] => [UInt8.ofNat (v₀ * 4 + v₁ / 16), UInt8.ofNat (v₁ % 16 * 16 + v₂ / 4)]
  | [v₀, v₁] => [UInt8.ofNat (v₀ * 4 + v₁ / 16)]
  | _ => []

theorem ofNat_eq {b : UInt8} {n : Nat} (h : n = b.toNat) : UInt8.ofNat n = b := by
  rw [h, UInt8.ofNat_toNat]

theorem octets_sextets (bs : Bytes) : octets (sextets bs) = bs := by
  induction bs using sextets.induct with
  | case1 b₀ b₁ b₂ bs ih =>
    have h₀ := b₀.toNat_lt
    have h₁ := b₁.toNat_lt
    have h₂ := b₂.toNat_lt
    rw [sextets, octets, ih, @ofNat_eq b₀ _ (by omega), @ofNat_eq b₁ _ (by omega),
      @ofNat_eq b₂ _ (by omega)]
  | case2 b₀ b₁ =>
    have h₀ := b₀.toNat_lt
    have h₁ := b₁.toNat_lt
    rw [sextets, octets, @ofNat_eq b₀ _ (by omega), @ofNat_eq b₁ _ (by omega)]
  | case3 b₀ =>
    have h₀ := b₀.toNat_lt
    rw [sextets, octets, @ofNat_eq b₀ _ (by omega)]
  | case4 => rfl

theorem sextets_lt (bs : Bytes) : ∀ v ∈ sextets bs, v < 64 := by
  induction bs using sextets.induct with
  | case1 b₀ b₁ b₂ bs ih =>
    have h₀ := b₀.toNat_lt
    have h₁ := b₁.toNat_lt
    have h₂ := b₂.toNat_lt
    intro v hv
    simp only [sextets, List.mem_cons] at hv
    rcases hv with rfl | rfl | rfl | rfl | hv
    · omega
    · omega
    · omega
    · omega
    · exact ih v hv
  | case2 b₀ b₁ =>
    have h₀ := b₀.toNat_lt
    have h₁ := b₁.toNat_lt
    intro v hv
    simp only [sextets, List.mem_cons, List.not_mem_nil, or_false] at hv
    omega
  | case3 b₀ =>
    have h₀ := b₀.toNat_lt
    intro v hv
    simp only [sextets, List.mem_cons, List.not_mem_nil, or_false] at hv
    omega
  | case4 => exact fun v hv => absurd hv List.not_mem_nil

/-- One value is never left over. -/
theorem length_sextets (bs : Bytes) : (sextets bs).length % 4 ≠ 1 := by
  induction bs using sextets.induct with
  | case1 b₀ b₁ b₂ bs ih =>
    simp only [sextets, List.length_cons]
    omega
  | case2 b₀ b₁ => simp [sextets]
  | case3 b₀ => simp [sextets]
  | case4 => simp [sextets]

/-! ## Texts -/

/-- The text without padding. -/
def Alphabet.encode (a : Alphabet) (bs : Bytes) : List Char := (sextets bs).map a.char

/-- The padding that makes the length a multiple of four. -/
def padding (s : List Char) : List Char := List.replicate ((4 - s.length % 4) % 4) '='

def pad (s : List Char) : List Char := s ++ padding s

/-- The bytes of a text without padding. -/
def Alphabet.decode (a : Alphabet) (s : List Char) : Option Bytes :=
  if s.length % 4 = 1 then none else (s.mapM a.value).map octets

theorem mapM_value_char (a : Alphabet) {vs : List Nat} (h : ∀ v ∈ vs, v < 64) :
    (vs.map a.char).mapM a.value = some vs := by
  induction vs with
  | nil => rfl
  | cons v vs ih =>
    rw [List.map_cons, List.mapM_cons, a.value_char v (h v List.mem_cons_self),
      ih fun w hw => h w (List.mem_cons_of_mem v hw)]
    rfl

theorem decode_encode (a : Alphabet) (bs : Bytes) : a.decode (a.encode bs) = some bs := by
  unfold Alphabet.decode Alphabet.encode
  rw [List.length_map, if_neg (length_sextets bs), mapM_value_char a (sextets_lt bs),
    Option.map_some, octets_sextets]

/-- Every character of a text stands for a value. -/
theorem value_of_mem (a : Alphabet) {bs : Bytes} {c : Char} (h : c ∈ a.encode bs) :
    ∃ v < 64, c = a.char v ∧ a.value c = some v := by
  obtain ⟨v, hv, rfl⟩ := List.mem_map.mp h
  exact ⟨v, sextets_lt bs v hv, rfl, a.value_char v (sextets_lt bs v hv)⟩

theorem pad_not_mem (a : Alphabet) (bs : Bytes) : '=' ∉ a.encode bs := by
  intro h
  obtain ⟨v, _, _, hvalue⟩ := value_of_mem a h
  rw [a.value_pad] at hvalue
  cases hvalue

/-! ## The reader of the browsers -/

def is_space (c : Char) : Bool := c ∈ ['\t', '\n', '\x0C', '\r', ' ']

/-- Up to two characters of padding at the end of a text whose length is a multiple of four. -/
def strip_padding (s : List Char) : List Char :=
  if s.length % 4 = 0 then
    if s.getLast? = some '=' then
      if s.dropLast.getLast? = some '=' then s.dropLast.dropLast else s.dropLast
    else s
  else s

/-- `atob`, which gives the bytes as characters. -/
def atob (s : List Char) : Option Bytes :=
  standard.decode (strip_padding (s.filter (!is_space ·)))

/-- The padding is taken away. -/
theorem strip_padding_pad {s : List Char} (hpad : '=' ∉ s) (hlen : s.length % 4 ≠ 1) :
    strip_padding (pad s) = s := by
  have hlast : s.getLast? ≠ some '=' := fun h => hpad (List.mem_of_getLast? h)
  have hcases : s.length % 4 = 0 ∨ s.length % 4 = 2 ∨ s.length % 4 = 3 := by omega
  unfold strip_padding pad padding
  rcases hcases with h | h | h
  · simp [h, hlast]
  · simp [h, List.replicate, List.getLast?_append, List.dropLast_append_of_ne_nil]
    omega
  · simp [h, List.getLast?_append, hlast]
    omega

theorem not_is_space_of_mem {bs : Bytes} {c : Char} (h : c ∈ pad (standard.encode bs)) :
    is_space c = false := by
  rcases List.mem_append.mp h with h | h
  · obtain ⟨v, hv, rfl, _⟩ := value_of_mem standard h
    have hall : ∀ v < 64, is_space (standard.char v) = false := by decide
    exact hall v hv
  · rw [List.eq_of_mem_replicate h]
    rfl

theorem atob_pad_encode (bs : Bytes) : atob (pad (standard.encode bs)) = some bs := by
  have hfilter : (pad (standard.encode bs)).filter (!is_space ·) = pad (standard.encode bs) :=
    List.filter_eq_self.mpr fun c hc => by rw [not_is_space_of_mem hc]; rfl
  have hlen : (standard.encode bs).length % 4 ≠ 1 := by
    unfold Alphabet.encode
    rw [List.length_map]
    exact length_sextets bs
  unfold atob
  rw [hfilter, strip_padding_pad (pad_not_mem standard bs) hlen, decode_encode]

/-! ## The reader of Python -/

/-- `binascii.a2b_base64`: the position in the group of four, the bits that are left over, and the
padding so far. Characters that stand for nothing are skipped. -/
def a2b (quad_pos leftchar pads : Nat) : List Char → Option Bytes
  | [] => if quad_pos = 0 then some [] else none
  | c :: s =>
    if c = '=' then
      if 2 ≤ quad_pos then
        if 4 ≤ quad_pos + (pads + 1) then some [] else a2b quad_pos leftchar (pads + 1) s
      else a2b quad_pos leftchar pads s
    else
      match standard.value c with
      | none => a2b quad_pos leftchar pads s
      | some v =>
        if quad_pos = 0 then a2b 1 v 0 s
        else if quad_pos = 1 then
          (a2b 2 (v % 16) 0 s).map (UInt8.ofNat (leftchar * 4 + v / 16) :: ·)
        else if quad_pos = 2 then
          (a2b 3 (v % 4) 0 s).map (UInt8.ofNat (leftchar * 16 + v / 4) :: ·)
        else (a2b 0 0 0 s).map (UInt8.ofNat (leftchar * 64 + v) :: ·)

def a2b_base64 (s : List Char) : Option Bytes := a2b 0 0 0 s

theorem char_ne_pad {v : Nat} (h : v < 64) : standard.char v ≠ '=' := by
  intro hpad
  have hvalue := standard.value_char v h
  rw [hpad, standard.value_pad] at hvalue
  cases hvalue

section Groups

variable {v leftchar pads : Nat} (s : List Char)

theorem a2b_first (h : v < 64) : a2b 0 leftchar pads (standard.char v :: s) = a2b 1 v 0 s := by
  rw [a2b, if_neg (char_ne_pad h), standard.value_char v h]
  rfl

theorem a2b_second (h : v < 64) : a2b 1 leftchar pads (standard.char v :: s) =
    (a2b 2 (v % 16) 0 s).map (UInt8.ofNat (leftchar * 4 + v / 16) :: ·) := by
  rw [a2b, if_neg (char_ne_pad h), standard.value_char v h]
  rfl

theorem a2b_third (h : v < 64) : a2b 2 leftchar pads (standard.char v :: s) =
    (a2b 3 (v % 4) 0 s).map (UInt8.ofNat (leftchar * 16 + v / 4) :: ·) := by
  rw [a2b, if_neg (char_ne_pad h), standard.value_char v h]
  rfl

theorem a2b_fourth (h : v < 64) : a2b 3 leftchar pads (standard.char v :: s) =
    (a2b 0 0 0 s).map (UInt8.ofNat (leftchar * 64 + v) :: ·) := by
  rw [a2b, if_neg (char_ne_pad h), standard.value_char v h]
  rfl

/-- A group of four characters gives three bytes, whatever follows. -/
theorem a2b_group (b₀ b₁ b₂ : UInt8) :
    a2b_base64 (standard.encode [b₀, b₁, b₂] ++ s) = (a2b_base64 s).map (b₀ :: b₁ :: b₂ :: ·) := by
  have h₀ := b₀.toNat_lt
  have h₁ := b₁.toNat_lt
  have h₂ := b₂.toNat_lt
  change a2b 0 0 0 (standard.char _ :: standard.char _ :: standard.char _ :: standard.char _ :: s) =
    (a2b 0 0 0 s).map _
  rw [a2b_first _ (by omega), a2b_second _ (by omega), a2b_third _ (by omega),
    a2b_fourth _ (by omega), @ofNat_eq b₀ _ (by omega), @ofNat_eq b₁ _ (by omega),
    @ofNat_eq b₂ _ (by omega), Option.map_map, Option.map_map]
  rfl

theorem a2b_two (b₀ b₁ : UInt8) : a2b_base64 (standard.encode [b₀, b₁] ++ ['=']) =
    some [b₀, b₁] := by
  have h₀ := b₀.toNat_lt
  have h₁ := b₁.toNat_lt
  change a2b 0 0 0 (standard.char _ :: standard.char _ :: standard.char _ :: ['=']) = _
  rw [a2b_first _ (by omega), a2b_second _ (by omega), a2b_third _ (by omega),
    @ofNat_eq b₀ _ (by omega), @ofNat_eq b₁ _ (by omega)]
  rfl

theorem a2b_one (b₀ : UInt8) : a2b_base64 (standard.encode [b₀] ++ ['=', '=']) = some [b₀] := by
  have h₀ := b₀.toNat_lt
  change a2b 0 0 0 (standard.char _ :: standard.char _ :: ['=', '=']) = _
  rw [a2b_first _ (by omega), a2b_second _ (by omega), @ofNat_eq b₀ _ (by omega)]
  rfl

end Groups

/-- The padding depends on the bytes after the last group. -/
theorem pad_encode_cons (a : Alphabet) (b₀ b₁ b₂ : UInt8) (bs : Bytes) :
    pad (a.encode (b₀ :: b₁ :: b₂ :: bs)) = a.encode [b₀, b₁, b₂] ++ pad (a.encode bs) := by
  have hsplit : a.encode (b₀ :: b₁ :: b₂ :: bs) = a.encode [b₀, b₁, b₂] ++ a.encode bs := by
    simp [Alphabet.encode, sextets]
  have hlen : (a.encode [b₀, b₁, b₂] ++ a.encode bs).length = (a.encode bs).length + 4 := by
    simp [Alphabet.encode, sextets]
  unfold pad padding
  rw [hsplit, hlen, Nat.add_mod_right, List.append_assoc]

theorem a2b_pad_encode (bs : Bytes) : a2b_base64 (pad (standard.encode bs)) = some bs := by
  induction bs using sextets.induct with
  | case1 b₀ b₁ b₂ bs ih =>
    rw [pad_encode_cons, a2b_group, ih]
    rfl
  | case2 b₀ b₁ => exact a2b_two b₀ b₁
  | case3 b₀ => exact a2b_one b₀
  | case4 => rfl

end base64
