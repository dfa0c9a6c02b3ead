-- JSON values as the handlers read them: `value` with a default, which
-- throws on the wrong kind of value, and `from_chars`, which reads an id
-- from the front of a string.
import Mathlib.Data.List.TakeWhile
import Loomic.Frame

open loomic.frame

namespace loomic.json

/-- A parsed value. No code reads a number, so a number keeps its text. -/
inductive Json
  | null
  | bool (b : Bool)
  | number (text : String)
  | string (s : String)
  | array (items : List Json)
  | object (members : List (String × Json))

/-- `j.value(key, std::string{})`: the empty string when the key is absent. `none` is the
exception that a value which is no object, or a member which is no string, throws. -/
def Json.value_string (key : String) : Json → Option String
  | .object members =>
    match members.lookup key with
    | none => some ""
    | some (.string s) => some s
    | some _ => none
  | _ => none

/-- `j.value(key, false)`. -/
def Json.value_bool (key : String) : Json → Option Bool
  | .object members =>
    match members.lookup key with
    | none => some false
    | some (.bool b) => some b
    | some _ => none
  | _ => none

/-- `std::from_chars` into a `uint64_t`: the digits at the front of the string, or `none` when
there are none or their number does not fit. What follows the digits is not looked at. -/
def from_chars (s : String) : Option UInt64 :=
  let digits := s.toList.takeWhile Char.isDigit
  let n := digits.foldl (fun n c => 10 * n + (c.toNat - '0'.toNat)) 0
  if digits = [] then none else if n < 2 ^ 64 then some (UInt64.ofNat n) else none

theorem from_chars_number (n : Nat) :
    from_chars (toString n) = if n < 2 ^ 64 then some (UInt64.ofNat n) else none := by
  have hlist : (toString n).toList = Nat.toDigits 10 n := Nat.toList_repr
  have hdigits : (Nat.toDigits 10 n).takeWhile Char.isDigit = Nat.toDigits 10 n := by
    apply List.takeWhile_eq_self_iff.mpr
    intro c hc
    exact Nat.isDigit_of_mem_toDigits (by decide) (by decide) hc
  have hvalue : (Nat.toDigits 10 n).foldl (fun n c => 10 * n + (c.toNat - '0'.toNat)) 0 = n := by
    rw [← Nat.ofDigitChars_eq_foldl]
    exact Nat.ofDigitChars_ten_toDigits
  unfold from_chars
  dsimp only
  rw [hlist, hdigits, hvalue, if_neg Nat.toDigits_ne_nil]

theorem from_chars_toString {n : Nat} (h : n < 2 ^ 64) :
    from_chars (toString n) = some (UInt64.ofNat n) := by
  rw [from_chars_number, if_pos h]

theorem from_chars_id (id : UInt64) : from_chars (toString id.toNat) = some id := by
  rw [from_chars_toString id.toNat_lt, UInt64.ofNat_toNat]

/-- A number has none of the characters of a query string. -/
theorem not_mem_toString {c : Char} (hc : c.isDigit = false) (n : Nat) :
    c ∉ (toString n).toList := by
  intro hmem
  have hlist : (toString n).toList = Nat.toDigits 10 n := Nat.toList_repr
  rw [hlist] at hmem
  have hdigit := Nat.isDigit_of_mem_toDigits (by decide) (by decide) hmem
  rw [hc] at hdigit
  cases hdigit

theorem toString_ne_empty (n : Nat) : toString n ≠ "" := by
  intro hempty
  have hlist : (toString n).toList = Nat.toDigits 10 n := Nat.toList_repr
  rw [hempty] at hlist
  exact Nat.toDigits_ne_nil hlist.symm

/-- The bytes of a string. -/
def bytes (s : String) : Bytes := s.toUTF8.toList

theorem toList_loop (b : ByteArray) (i : Nat) (r : List UInt8) :
    ByteArray.toList.loop b i r = r.reverse ++ b.data.toList.drop i := by
  fun_induction ByteArray.toList.loop b i r with
  | case1 i r hi ih =>
    have hlt : i < b.data.toList.length := hi
    have hget : b.get! i = b.data.toList[i] := getElem!_pos b.data i hi
    rw [ih, List.drop_eq_getElem_cons hlt, hget, List.reverse_cons, List.append_assoc]
    rfl
  | case2 i r hi =>
    have hle : b.data.toList.length ≤ i := Nat.le_of_not_lt hi
    rw [List.drop_eq_nil_of_le hle, List.append_nil]

theorem bytes_eq (s : String) : bytes s = s.toUTF8.data.toList := by
  unfold bytes ByteArray.toList
  rw [toList_loop, List.reverse_nil, List.nil_append, List.drop_zero]

theorem bytes_eq_flatMap (s : String) : bytes s = s.toList.flatMap String.utf8EncodeChar := by
  have hs : s.toUTF8 = s.toList.utf8Encode := by
    conv_lhs => rw [← String.ofList_toList (s := s)]
    exact String.toByteArray_ofList
  rw [bytes_eq, hs]
  exact List.toList_data_toByteArray

/-- A character of ASCII other than NUL is a byte other than zero. -/
theorem zero_notMem_encode {c : Char} (h0 : 0 < c.toNat) (h : c.toNat < 128) :
    0 ∉ String.utf8EncodeChar c := by
  have hencode : String.utf8EncodeChar c = [UInt8.ofNat c.toNat] := if_pos (Nat.le_of_lt_succ h)
  rw [hencode, List.mem_singleton]
  intro hz
  have hnat : c.toNat % 256 = 0 := (congrArg UInt8.toNat hz).symm
  omega

theorem zero_notMem_bytes {s : String} (h : ∀ c ∈ s.toList, 0 < c.toNat ∧ c.toNat < 128) :
    0 ∉ bytes s := by
  rw [bytes_eq_flatMap, List.mem_flatMap]
  rintro ⟨c, hc, hzero⟩
  obtain ⟨h0, hlt⟩ := h c hc
  exact zero_notMem_encode h0 hlt hzero

end loomic.json
