-- The ids that are printed in hexadecimal: the UUID of a request (Uuid.cpp)
-- and the name of an upload (MessagesHandler.cpp).

namespace loomic.uuid

def hex_digit (n : Nat) : Char := "0123456789abcdef".toList.getD n '0'

/-- `%0wx` of a number that has at most `w` digits. -/
def hex : Nat → Nat → List Char
  | 0, _ => []
  | w + 1, n => hex w (n / 16) ++ [hex_digit (n % 16)]

/-- From the two draws of the generator: version 4, and variant 10. -/
def generate_uuid_v4 (hi lo : UInt64) : String :=
  let hi := (hi &&& 0xFFFFFFFFFFFF0FFF) ||| 0x0000000000004000
  let lo := (lo &&& 0x3FFFFFFFFFFFFFFF) ||| 0x8000000000000000
  String.ofList (hex 8 (hi >>> 32).toNat ++
    '-' :: hex 4 ((hi >>> 16) &&& 0xFFFF).toNat ++
    '-' :: hex 4 (hi &&& 0xFFFF).toNat ++
    '-' :: hex 4 (lo >>> 48).toNat ++
    '-' :: hex 12 (lo &&& 0x0000FFFFFFFFFFFF).toNat)

/-- The four draws of a `uniform_int_distribution<uint32_t>`. -/
structure Draws where
  a : UInt32 := 0
  b : UInt32 := 0
  c : UInt32 := 0
  d : UInt32 := 0

def generate_uuid (draws : Draws) : String :=
  String.ofList (hex 8 draws.a.toNat ++ hex 8 draws.b.toNat ++ hex 8 draws.c.toNat ++
    hex 8 draws.d.toNat)

def IsAscii (cs : List Char) : Prop := ∀ c ∈ cs, c.toNat < 0x80

theorem hex_digit_ascii {n : Nat} (h : n < 16) : (hex_digit n).toNat < 0x80 := by
  have hall : ∀ k : Fin 16, (hex_digit k).toNat < 0x80 := by decide
  exact hall ⟨n, h⟩

theorem hex_ascii (w n : Nat) : IsAscii (hex w n) := by
  induction w generalizing n with
  | zero => simp [hex, IsAscii]
  | succ w ih =>
    intro c hc
    rcases List.mem_append.mp hc with hc | hc
    · exact ih (n / 16) c hc
    · obtain rfl := List.mem_singleton.mp hc
      apply hex_digit_ascii
      omega

theorem generate_uuid_ascii (draws : Draws) : IsAscii (generate_uuid draws).toList := by
  unfold generate_uuid
  rw [String.toList_ofList]
  intro c hc
  simp only [List.mem_append] at hc
  rcases hc with ((hc | hc) | hc) | hc <;> exact hex_ascii _ _ c hc

/-- A UUID is not the empty text. -/
theorem generate_uuid_v4_ne (hi lo : UInt64) : generate_uuid_v4 hi lo ≠ "" := by
  intro h
  have hlist := congrArg String.toList h
  unfold generate_uuid_v4 at hlist
  rw [String.toList_ofList] at hlist
  simp at hlist

end loomic.uuid
