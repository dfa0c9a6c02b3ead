-- JSON as JavaScript writes and reads it. `stringify` writes a value without white space, and
-- `parse` reads any JSON text; an escape may stand for one half of a surrogate pair, so a
-- string is read in units of UTF-16. Parsing undoes writing.
import Mathlib.Data.List.Basic
import Mathlib.Data.List.Nodup

namespace json_texts

/-! ## Values -/

def number_char (c : Char) : Bool := c.isDigit || c ∈ ['-', '+', '.', 'e', 'E']

/-- An exponent, or nothing. -/
def is_exponent : List Char → Bool
  | [] => true
  | e :: '+' :: s | e :: '-' :: s => (e = 'e' || e = 'E') && s ≠ [] && s.all Char.isDigit
  | e :: s => (e = 'e' || e = 'E') && s ≠ [] && s.all Char.isDigit

/-- A fraction and an exponent, where both may be missing. -/
def is_fraction : List Char → Bool
  | '.' :: c :: s => c.isDigit && is_exponent (s.dropWhile Char.isDigit)
  | s => is_exponent s

def is_unsigned : List Char → Bool
  | '0' :: s => is_fraction s
  | c :: s => c.isDigit && is_fraction (s.dropWhile Char.isDigit)
  | [] => false

def is_number : List Char → Bool
  | '-' :: s => is_unsigned s
  | s => is_unsigned s

/-- A number keeps its text. -/
@[ext]
structure Number where
  text : List Char
  chars : text.all number_char = true
  form : is_number text = true

inductive Value
  | null
  | bool (b : Bool)
  | number (n : Number)
  | string (s : String)
  | array (items : List Value)
  | object (members : List (String × Value))

/-- The keys of every object are different. -/
inductive Value.Valid : Value → Prop
  | null : Valid .null
  | bool (b : Bool) : Valid (.bool b)
  | number (n : Number) : Valid (.number n)
  | string (s : String) : Valid (.string s)
  | array {items : List Value} (hitems : ∀ v ∈ items, Valid v) : Valid (.array items)
  | object {members : List (String × Value)} (hkeys : (members.map Prod.fst).Nodup)
      (hmembers : ∀ m ∈ members, Valid m.2) : Valid (.object members)

/-- A property is set: in its place, or behind the others. -/
def assign (members : List (String × Value)) (key : String) (v : Value) :
    List (String × Value) :=
  match members with
  | [] => [(key, v)]
  | (k, w) :: members => if k = key then (k, v) :: members else (k, w) :: assign members key v

/-! ## Writing -/

def hex_digit (n : Nat) : Char := "0123456789abcdef".toList.getD n '0'

def quote_char (c : Char) : List Char :=
  if c = '"' then ['\\', '"']
  else if c = '\\' then ['\\', '\\']
  else if c.toNat = 0x08 then ['\\', 'b']
  else if c.toNat = 0x09 then ['\\', 't']
  else if c.toNat = 0x0A then ['\\', 'n']
  else if c.toNat = 0x0C then ['\\', 'f']
  else if c.toNat = 0x0D then ['\\', 'r']
  else if c.toNat < 0x20 then
    ['\\', 'u', '0', '0', hex_digit (c.toNat / 16), hex_digit (c.toNat % 16)]
  else [c]

def quote (s : String) : List Char := '"' :: s.toList.flatMap quote_char ++ ['"']

mutual

def stringify : Value → List Char
  | .null => "null".toList
  | .bool true => "true".toList
  | .bool false => "false".toList
  | .number n => n.text
  | .string s => quote s
  | .array [] => ['[', ']']
  | .array (v :: items) => '[' :: (stringify v ++ stringify_items items)
  | .object [] => ['\x7b', '\x7d']
  | .object ((key, v) :: members) =>
    '\x7b' :: (quote key ++ ':' :: (stringify v ++ stringify_members members))

/-- The items behind the first one. -/
def stringify_items : List Value → List Char
  | [] => [']']
  | v :: items => ',' :: (stringify v ++ stringify_items items)

def stringify_members : List (String × Value) → List Char
  | [] => ['\x7d']
  | (key, v) :: members => ',' :: (quote key ++ ':' :: (stringify v ++ stringify_members members))

end

/-! ## Reading -/

def hex_value (c : Char) : Option Nat :=
  if c.isDigit then some (c.toNat - '0'.toNat)
  else if 'a' ≤ c ∧ c ≤ 'f' then some (c.toNat - 'a'.toNat + 10)
  else if 'A' ≤ c ∧ c ≤ 'F' then some (c.toNat - 'A'.toNat + 10)
  else none

def hex_unit (a b c d : Char) : Option Nat := do
  let a ← hex_value a
  let b ← hex_value b
  let c ← hex_value c
  let d ← hex_value d
  return ((16 * a + b) * 16 + c) * 16 + d

def utf16 (c : Char) : List Nat :=
  if c.toNat < 0x10000 then [c.toNat]
  else [0xD800 + (c.toNat - 0x10000) / 0x400, 0xDC00 + (c.toNat - 0x10000) % 0x400]

/-- The characters of UTF-16. Half a pair becomes the replacement character. -/
def of_utf16 : List Nat → List Char
  | high :: low :: units =>
    if 0xD800 ≤ high ∧ high < 0xDC00 ∧ 0xDC00 ≤ low ∧ low < 0xE000 then
      Char.ofNat (0x10000 + (high - 0xD800) * 0x400 + (low - 0xDC00)) :: of_utf16 units
    else (if 0xD800 ≤ high ∧ high < 0xE000 then '\uFFFD' else Char.ofNat high) ::
      of_utf16 (low :: units)
  | [unit] => [if 0xD800 ≤ unit ∧ unit < 0xE000 then '\uFFFD' else Char.ofNat unit]
  | [] => []

/-- The character behind a backslash. -/
def unescape (c : Char) : Option Nat :=
  if c = '"' ∨ c = '\\' ∨ c = '/' then some c.toNat
  else if c = 'b' then some 0x08
  else if c = 'f' then some 0x0C
  else if c = 'n' then some 0x0A
  else if c = 'r' then some 0x0D
  else if c = 't' then some 0x09
  else none

/-- The units up to the closing quote, and what stands behind it. -/
def read_units : List Char → Option (List Nat × List Char)
  | '"' :: s => some ([], s)
  | '\\' :: 'u' :: a :: b :: c :: d :: s => do
    let unit ← hex_unit a b c d
    let (units, s) ← read_units s
    return (unit :: units, s)
  | '\\' :: c :: s => do
    let unit ← unescape c
    let (units, s) ← read_units s
    return (unit :: units, s)
  | c :: s => if c.toNat < 0x20 then none else
    (read_units s).map fun (units, s) => (utf16 c ++ units, s)
  | [] => none

def read_string (s : List Char) : Option (String × List Char) :=
  (read_units s).map fun (units, s) => (String.ofList (of_utf16 units), s)

def read_number (s : List Char) : Option (Value × List Char) :=
  if h : is_number (s.takeWhile number_char) = true then
    some (.number ⟨s.takeWhile number_char, List.all_takeWhile, h⟩, s.dropWhile number_char)
  else none

def read_word (word : List Char) (v : Value) (s : List Char) : Option (Value × List Char) :=
  if word.isPrefixOf s then some (v, s.drop word.length) else none

def is_blank (c : Char) : Bool := c ∈ [' ', '\t', '\n', '\r']

def skip (s : List Char) : List Char := s.dropWhile is_blank

mutual

/-- A value and what stands behind it. The depth of the text is bounded. -/
def read_value : Nat → List Char → Option (Value × List Char)
  | 0, _ => none
  | n + 1, s =>
    match skip s with
    | [] => none
    | c :: s =>
      if c = '"' then (read_string s).map fun (text, s) => (.string text, s)
      else if c = '[' then
        if (skip s).head? = some ']' then some (.array [], (skip s).tail)
        else (read_items n s).map fun (items, s) => (.array items, s)
      else if c = '\x7b' then
        if (skip s).head? = some '\x7d' then some (.object [], (skip s).tail)
        else (read_members n s).map fun (members, s) =>
          (.object (members.foldl (fun members m => assign members m.1 m.2) []), s)
      else if c = 'n' then read_word "ull".toList .null s
      else if c = 't' then read_word "rue".toList (.bool true) s
      else if c = 'f' then read_word "alse".toList (.bool false) s
      else read_number (c :: s)

/-- The items of an array that has one at least, and its bracket. -/
def read_items : Nat → List Char → Option (List Value × List Char)
  | 0, _ => none
  | n + 1, s => (read_value n s).bind fun (v, s) =>
    match skip s with
    | [] => none
    | c :: s =>
      if c = ',' then (read_items n s).map fun (items, s) => (v :: items, s)
      else if c = ']' then some ([v], s)
      else none

/-- The members of an object that has one at least, and its brace. -/
def read_members : Nat → List Char → Option (List (String × Value) × List Char)
  | 0, _ => none
  | n + 1, s =>
    match skip s with
    | [] => none
    | c :: s => if c ≠ '"' then none else (read_string s).bind fun (key, s) =>
      match skip s with
      | [] => none
      | c :: s => if c ≠ ':' then none else (read_value n s).bind fun (v, s) =>
        match skip s with
        | [] => none
        | c :: s =>
          if c = ',' then (read_members n s).map fun (members, s) => ((key, v) :: members, s)
          else if c = '\x7d' then some ([(key, v)], s)
          else none

end

/-- `none` is the `SyntaxError`. -/
def parse (s : List Char) : Option Value :=
  match read_value (s.length + 1) s with
  | some (v, rest) => if skip rest = [] then some v else none
  | none => none

/-! ## Strings -/

theorem hex_value_hex_digit {n : Nat} (h : n < 16) : hex_value (hex_digit n) = some n := by
  have hall : ∀ k : Fin 16, hex_value (hex_digit k) = some k.val := by decide
  exact hall ⟨n, h⟩

theorem utf16_small {c : Char} (h : c.toNat < 0x10000) : utf16 c = [c.toNat] := by
  rw [utf16, if_pos h]

theorem read_escape {x : Char} {unit : Nat} (h : unescape x = some unit) (s : List Char) :
    read_units ('\\' :: x :: s) = (read_units s).map fun (units, s) => (unit :: units, s) := by
  have hu : x ≠ 'u' := by
    rintro rfl
    have hnone : unescape 'u' = none := by decide
    rw [hnone] at h
    cases h
  rw [read_units.eq_def]
  split
  · rename_i heq
    exact absurd (List.cons.inj heq).1 (by decide)
  · rename_i heq
    exact absurd (List.cons.inj (List.cons.inj heq).2).1 hu
  · rename_i heq
    obtain ⟨rfl, rfl⟩ := List.cons.inj (List.cons.inj heq).2
    rw [h]
    cases read_units s <;> simp
  · rename_i hno heq
    obtain ⟨rfl, rfl⟩ := List.cons.inj heq
    exact absurd rfl (hno _ _ rfl)
  · rename_i heq
    cases heq

theorem read_control (n : Nat) (h : n < 0x20) (s : List Char) :
    read_units ('\\' :: 'u' :: '0' :: '0' :: hex_digit (n / 16) :: hex_digit (n % 16) :: s) =
      (read_units s).map fun (units, s) => (n :: units, s) := by
  have hunit : hex_unit '0' '0' (hex_digit (n / 16)) (hex_digit (n % 16)) = some n := by
    have hzero : hex_value '0' = some 0 := by decide
    have hvalue : ((16 * 0 + 0) * 16 + n / 16) * 16 + n % 16 = n := by omega
    rw [hex_unit, hzero, hex_value_hex_digit (by omega), hex_value_hex_digit (by omega)]
    simpa using hvalue
  rw [read_units, hunit]
  cases read_units s <;> simp

theorem read_plain {c : Char} (hquote : c ≠ '"') (hescape : c ≠ '\\') (h : 0x20 ≤ c.toNat)
    (s : List Char) :
    read_units (c :: s) = (read_units s).map fun (units, s) => (utf16 c ++ units, s) := by
  rw [read_units.eq_def]
  split
  · rename_i heq
    exact absurd (List.cons.inj heq).1 hquote
  · rename_i heq
    exact absurd (List.cons.inj heq).1 hescape
  · rename_i heq
    exact absurd (List.cons.inj heq).1 hescape
  · rename_i heq
    obtain ⟨rfl, rfl⟩ := List.cons.inj heq
    rw [if_neg (by omega)]
  · rename_i heq
    cases heq

/-- A written character is read as its units. -/
theorem read_quote_char (c : Char) (s : List Char) :
    read_units (quote_char c ++ s) =
      (read_units s).map fun (units, s) => (utf16 c ++ units, s) := by
  have hshort : ∀ (x : Char) (unit : Nat), unescape x = some unit → c.toNat = unit →
      unit < 0x10000 → read_units (['\\', x] ++ s) =
        (read_units s).map fun (units, s) => (utf16 c ++ units, s) := by
    intro x unit hx hc hsmall
    rw [utf16_small (by omega), hc]
    exact read_escape hx s
  unfold quote_char
  split
  · rename_i h
    exact hshort '"' 0x22 (by decide) (by rw [h]; decide) (by decide)
  split
  · rename_i h
    exact hshort '\\' 0x5C (by decide) (by rw [h]; decide) (by decide)
  split
  · rename_i h
    exact hshort 'b' 0x08 (by decide) h (by decide)
  split
  · rename_i h
    exact hshort 't' 0x09 (by decide) h (by decide)
  split
  · rename_i h
    exact hshort 'n' 0x0A (by decide) h (by decide)
  split
  · rename_i h
    exact hshort 'f' 0x0C (by decide) h (by decide)
  split
  · rename_i h
    exact hshort 'r' 0x0D (by decide) h (by decide)
  split
  · rename_i h
    rw [utf16_small (by omega)]
    exact read_control c.toNat h s
  · rename_i hquote hescape _ _ _ _ _ h
    exact read_plain hquote hescape (by omega) s

theorem toNat_valid (c : Char) :
    c.toNat < 0xD800 ∨ 0xDFFF < c.toNat ∧ c.toNat < 0x110000 := c.valid

theorem of_utf16_utf16 (c : Char) (units : List Nat) :
    of_utf16 (utf16 c ++ units) = c :: of_utf16 units := by
  have hvalid := toNat_valid c
  by_cases hsmall : c.toNat < 0x10000
  · rw [utf16_small hsmall, List.singleton_append]
    cases units with
    | nil =>
      rw [of_utf16, if_neg (by omega), Char.ofNat_toNat, of_utf16]
    | cons low units =>
      rw [of_utf16, if_neg (by omega), if_neg (by omega), Char.ofNat_toNat]
  · have hcode : 0x10000 + (0xD800 + (c.toNat - 0x10000) / 0x400 - 0xD800) * 0x400 +
        (0xDC00 + (c.toNat - 0x10000) % 0x400 - 0xDC00) = c.toNat := by omega
    rw [utf16, if_neg hsmall]
    simp only [List.cons_append, List.nil_append]
    rw [of_utf16, if_pos (by omega), hcode, Char.ofNat_toNat]

theorem read_quote (s : String) (rest : List Char) :
    read_string (s.toList.flatMap quote_char ++ '"' :: rest) = some (s, rest) := by
  have hunits : ∀ cs : List Char, read_units (cs.flatMap quote_char ++ '"' :: rest) =
      some (cs.flatMap utf16, rest) := by
    intro cs
    induction cs with
    | nil => simp [read_units]
    | cons c cs ih =>
      rw [List.flatMap_cons, List.append_assoc, read_quote_char, ih, Option.map_some,
        List.flatMap_cons]
  have hchars : ∀ cs : List Char, of_utf16 (cs.flatMap utf16) = cs := by
    intro cs
    induction cs with
    | nil => simp [of_utf16]
    | cons c cs ih => rw [List.flatMap_cons, of_utf16_utf16, ih]
  rw [read_string, hunits, Option.map_some]
  simp only [hchars, String.ofList_toList]

/-! ## Values that are read back -/

/-- What stands behind a number does not go on with it. -/
def Stops (rest : List Char) : Prop := ∀ c ∈ rest.head?, number_char c = false

theorem stops_cons {c : Char} {rest : List Char} (h : number_char c = false) :
    Stops (c :: rest) := by
  intro d hd
  rw [List.head?_cons, Option.mem_some_iff] at hd
  exact hd ▸ h

theorem skip_cons {c : Char} {s : List Char} (h : is_blank c = false) : skip (c :: s) = c :: s := by
  simp [skip, h]

theorem read_number_text (n : Number) {rest : List Char} (h : Stops rest) :
    read_number (n.text ++ rest) = some (.number n, rest) := by
  have hchars : ∀ c ∈ n.text, number_char c = true := List.all_eq_true.1 n.chars
  have hrest : rest.takeWhile number_char = [] ∧ rest.dropWhile number_char = rest := by
    cases rest with
    | nil => simp
    | cons c rest => simp [h c (by simp)]
  have htake : (n.text ++ rest).takeWhile number_char = n.text := by
    rw [List.takeWhile_append_of_pos hchars, hrest.1, List.append_nil]
  have hdrop : (n.text ++ rest).dropWhile number_char = rest := by
    rw [List.dropWhile_append_of_pos hchars, hrest.2]
  have hform : is_number ((n.text ++ rest).takeWhile number_char) = true := by
    rw [htake]
    exact n.form
  have hnumber : (⟨_, List.all_takeWhile, hform⟩ : Number) = n := Number.ext htake
  rw [read_number, dif_pos hform, hdrop, hnumber]

theorem number_char_other {c : Char} (h : number_char c = true) :
    is_blank c = false ∧ c ≠ ']' ∧ c ≠ '"' ∧ c ≠ '[' ∧ c ≠ '\x7b' ∧ c ≠ 'n' ∧ c ≠ 't' ∧
      c ≠ 'f' := by
  have hblank : is_blank c = false := by
    by_contra hno
    simp only [is_blank, List.mem_cons, List.not_mem_nil, or_false, decide_eq_true_eq,
      Bool.not_eq_false] at hno
    rcases hno with rfl | rfl | rfl | rfl <;> exact absurd h (by decide)
  refine ⟨hblank, ?_, ?_, ?_, ?_, ?_, ?_, ?_⟩ <;> (rintro rfl; exact absurd h (by decide))

theorem number_head (n : Number) : ∃ c s, n.text = c :: s ∧ number_char c = true := by
  have hform := n.form
  have hchars := n.chars
  cases htext : n.text with
  | nil => simp [htext, is_number, is_unsigned] at hform
  | cons c s =>
    rw [htext, List.all_cons, Bool.and_eq_true] at hchars
    exact ⟨c, s, rfl, hchars.1⟩

/-- The first character of a value. -/
theorem stringify_head (v : Value) :
    ∃ c, (stringify v).head? = some c ∧ is_blank c = false ∧ c ≠ ']' := by
  cases v with
  | null => exact ⟨'n', by simp [stringify], by decide, by decide⟩
  | bool b =>
    cases b
    · exact ⟨'f', by simp [stringify], by decide, by decide⟩
    · exact ⟨'t', by simp [stringify], by decide, by decide⟩
  | number n =>
    obtain ⟨c, s, htext, hc⟩ := number_head n
    have hother := number_char_other hc
    exact ⟨c, by simp [stringify, htext], hother.1, hother.2.1⟩
  | string s => exact ⟨'"', by simp [stringify, quote], by decide, by decide⟩
  | array items => exact ⟨'[', by cases items <;> simp [stringify], by decide, by decide⟩
  | object members =>
    refine ⟨'\x7b', ?_, by decide, by decide⟩
    rcases members with _ | ⟨⟨key, v⟩, members⟩ <;> simp [stringify]

/-- Reading a value that is written, with any text behind it. -/
def ReadsBack (v : Value) : Prop := ∀ n rest, (stringify v).length ≤ n → Stops rest →
  read_value n (stringify v ++ rest) = some (v, rest)

theorem read_items_stringify {v : Value} {items : List Value} (hv : ReadsBack v)
    (hitems : ∀ w ∈ items, ReadsBack w) (n : Nat) (rest : List Char)
    (hn : (stringify v).length + (stringify_items items).length ≤ n) :
    read_items n (stringify v ++ (stringify_items items ++ rest)) = some (v :: items, rest) := by
  induction items generalizing v n with
  | nil =>
    rw [stringify_items, List.length_singleton] at hn
    obtain ⟨n, rfl⟩ : ∃ m, n = m + 1 := ⟨n - 1, by omega⟩
    have hread := hv n (']' :: rest) (by omega) (stops_cons (by decide))
    rw [stringify_items, List.singleton_append, read_items, hread, Option.bind_some]
    simp [skip_cons (show is_blank ']' = false by decide)]
  | cons w items ih =>
    rw [stringify_items, List.length_cons, List.length_append] at hn
    obtain ⟨n, rfl⟩ : ∃ m, n = m + 1 := ⟨n - 1, by omega⟩
    have hread := hv n (',' :: (stringify w ++ stringify_items items ++ rest)) (by omega)
      (stops_cons (by decide))
    have htail := ih (hitems w List.mem_cons_self)
      (fun w' hw' => hitems w' (List.mem_cons_of_mem w hw')) n (by omega)
    rw [stringify_items, List.cons_append, read_items, hread, Option.bind_some]
    simp [skip_cons (show is_blank ',' = false by decide), htail]

theorem read_members_stringify {key : String} {v : Value} {members : List (String × Value)}
    (hv : ReadsBack v) (hmembers : ∀ m ∈ members, ReadsBack m.2) (n : Nat) (rest : List Char)
    (hn : (stringify v).length + (stringify_members members).length + 1 ≤ n) :
    read_members n (quote key ++ ':' :: (stringify v ++ (stringify_members members ++ rest))) =
      some ((key, v) :: members, rest) := by
  induction members generalizing key v n with
  | nil =>
    rw [stringify_members, List.length_singleton] at hn
    obtain ⟨n, rfl⟩ : ∃ m, n = m + 1 := ⟨n - 1, by omega⟩
    have hread := hv n ('\x7d' :: rest) (by omega) (stops_cons (by decide))
    rw [stringify_members, List.singleton_append, quote, read_members]
    simp [skip_cons (show is_blank '"' = false by decide), read_quote,
      skip_cons (show is_blank ':' = false by decide), hread,
      skip_cons (show is_blank '\x7d' = false by decide)]
  | cons m members ih =>
    obtain ⟨key', w⟩ := m
    have hlength : (stringify_members ((key', w) :: members)).length =
        (quote key').length + (stringify w).length + (stringify_members members).length + 2 := by
      rw [stringify_members]
      simp
      omega
    have hquote : 2 ≤ (quote key').length := by simp [quote]
    obtain ⟨n, rfl⟩ : ∃ m, n = m + 1 := ⟨n - 1, by omega⟩
    have hread := hv n (',' :: (quote key' ++ ':' ::
      (stringify w ++ (stringify_members members ++ rest)))) (by omega) (stops_cons (by decide))
    have hw : ReadsBack w := hmembers (key', w) List.mem_cons_self
    have htail := @ih key' w hw (fun m hm => hmembers m (List.mem_cons_of_mem _ hm)) n (by omega)
    have htext : stringify_members ((key', w) :: members) ++ rest =
        ',' :: (quote key' ++ ':' :: (stringify w ++ (stringify_members members ++ rest))) := by
      rw [stringify_members]
      simp
    rw [htext, quote, read_members]
    simp [skip_cons (show is_blank '"' = false by decide), read_quote,
      skip_cons (show is_blank ':' = false by decide), hread,
      skip_cons (show is_blank ',' = false by decide), htail]

/-! ## Properties -/

@[simp] theorem lookup_assign_self (members : List (String × Value)) (key : String) (v : Value) :
    (assign members key v).lookup key = some v := by
  induction members with
  | nil => simp [assign]
  | cons m members ih =>
    obtain ⟨k, w⟩ := m
    by_cases h : k = key
    · simp [assign, h]
    · have hne : (key == k) = false := by simpa using Ne.symm h
      simp [assign, h, List.lookup_cons, hne, ih]

theorem lookup_assign_ne (members : List (String × Value)) {key key' : String} (h : key' ≠ key)
    (v : Value) : (assign members key v).lookup key' = members.lookup key' := by
  induction members with
  | nil =>
    have hne : (key' == key) = false := by simpa using h
    simp [assign, List.lookup_cons, hne]
  | cons m members ih =>
    obtain ⟨k, w⟩ := m
    by_cases hk : k = key
    · have hne : (key' == key) = false := by simpa using h
      simp [assign, hk, List.lookup_cons, hne]
    · simp [assign, hk, List.lookup_cons, ih]

/-- A property that is set to what it is. -/
theorem assign_same {members : List (String × Value)} {key : String} {v : Value}
    (h : members.lookup key = some v) : assign members key v = members := by
  induction members with
  | nil => simp at h
  | cons m members ih =>
    obtain ⟨k, w⟩ := m
    by_cases hk : k = key
    · subst hk
      rw [List.lookup_cons_self, Option.some.injEq] at h
      simp [assign, h]
    · have hne : (key == k) = false := by simpa using Ne.symm hk
      rw [List.lookup_cons, hne] at h
      simp [assign, hk, ih h]

theorem assign_new {members : List (String × Value)} {key : String} (v : Value)
    (h : key ∉ members.map Prod.fst) : assign members key v = members ++ [(key, v)] := by
  induction members with
  | nil => simp [assign]
  | cons m members ih =>
    obtain ⟨k, w⟩ := m
    rw [List.map_cons, List.mem_cons, not_or] at h
    simp [assign, Ne.symm h.1, ih h.2]

theorem keys_assign (members : List (String × Value)) (key : String) (v : Value) :
    (assign members key v).map Prod.fst = members.map Prod.fst ∨
      key ∉ members.map Prod.fst ∧
        (assign members key v).map Prod.fst = members.map Prod.fst ++ [key] := by
  by_cases h : key ∈ members.map Prod.fst
  · left
    induction members with
    | nil => simp at h
    | cons m members ih =>
      obtain ⟨k, w⟩ := m
      by_cases hk : k = key
      · simp [assign, hk]
      · rw [List.map_cons, List.mem_cons] at h
        have hmem := h.resolve_left (Ne.symm hk)
        simp only [assign, hk, if_false, List.map_cons, ih hmem]
  · right
    rw [assign_new v h]
    simp [h]

theorem valid_assign {members : List (String × Value)} {v : Value} (key : String)
    (h : Value.Valid (.object members)) (hv : v.Valid) :
    Value.Valid (.object (assign members key v)) := by
  obtain ⟨⟩ | ⟨⟩ | ⟨⟩ | ⟨⟩ | ⟨⟩ | ⟨hkeys, hmembers⟩ := h
  refine .object ?_ ?_
  · rcases keys_assign members key v with hsame | ⟨hnew, hsplit⟩
    · rw [hsame]
      exact hkeys
    · rw [hsplit, ← List.concat_eq_append]
      exact hkeys.concat hnew
  · clear hkeys
    induction members with
    | nil =>
      intro m hm
      rw [assign, List.mem_singleton] at hm
      exact hm ▸ hv
    | cons m members ih =>
      obtain ⟨k, w⟩ := m
      have hw := hmembers (k, w) List.mem_cons_self
      have htail := ih fun m hm => hmembers m (List.mem_cons_of_mem _ hm)
      intro m hm
      rw [assign] at hm
      split at hm
      · rcases List.mem_cons.1 hm with rfl | hm
        · exact hv
        · exact hmembers m (List.mem_cons_of_mem _ hm)
      · rcases List.mem_cons.1 hm with rfl | hm
        · exact hw
        · exact htail m hm

/-- The members of an object with different keys are set one after the other. -/
theorem foldl_assign {members acc : List (String × Value)}
    (h : ((acc ++ members).map Prod.fst).Nodup) :
    members.foldl (fun members m => assign members m.1 m.2) acc = acc ++ members := by
  induction members generalizing acc with
  | nil => simp
  | cons m members ih =>
    have hnew : m.1 ∉ acc.map Prod.fst := by
      intro hmem
      rw [List.map_append, List.map_cons, List.nodup_append] at h
      exact h.2.2 m.1 hmem m.1 List.mem_cons_self rfl
    rw [List.foldl_cons, assign_new m.2 hnew, ih (by simpa using h)]
    simp

/-! ## The law -/

theorem read_word_behind (word : List Char) (v : Value) (rest : List Char) :
    read_word word v (word ++ rest) = some (v, rest) := by
  simp [read_word]

theorem reads_back_array {items : List Value} (h : ∀ v ∈ items, ReadsBack v) :
    ReadsBack (.array items) := by
  intro n rest hn _
  cases items with
  | nil =>
    obtain ⟨n, rfl⟩ : ∃ m, n = m + 1 := ⟨n - 1, by simp [stringify] at hn; omega⟩
    rw [stringify, List.cons_append, read_value, skip_cons (by decide)]
    simp [skip_cons (show is_blank ']' = false by decide)]
  | cons v items =>
    rw [stringify, List.length_cons, List.length_append] at hn
    obtain ⟨n, rfl⟩ : ∃ m, n = m + 1 := ⟨n - 1, by omega⟩
    obtain ⟨c, hhead, hblank, hc⟩ := stringify_head v
    obtain ⟨s, hs⟩ := List.head?_eq_some_iff.1 hhead
    have hitems := read_items_stringify (h v List.mem_cons_self)
      (fun w hw => h w (List.mem_cons_of_mem v hw)) n rest (by omega)
    rw [stringify, List.cons_append, List.append_assoc, read_value, skip_cons (by decide)]
    rw [hs, List.cons_append] at hitems ⊢
    simp [skip_cons hblank, hc, hitems]

theorem reads_back_object {members : List (String × Value)} (hkeys : (members.map Prod.fst).Nodup)
    (h : ∀ m ∈ members, ReadsBack m.2) : ReadsBack (.object members) := by
  intro n rest hn _
  rcases members with _ | ⟨⟨key, v⟩, members⟩
  · obtain ⟨n, rfl⟩ : ∃ m, n = m + 1 := ⟨n - 1, by simp [stringify] at hn; omega⟩
    rw [stringify, List.cons_append, read_value, skip_cons (by decide)]
    simp [skip_cons (show is_blank '\x7d' = false by decide)]
  · have hquote : 2 ≤ (quote key).length := by simp [quote]
    have hlength : (stringify (.object ((key, v) :: members))).length =
        (quote key).length + (stringify v).length + (stringify_members members).length + 2 := by
      rw [stringify]
      simp
      omega
    obtain ⟨n, rfl⟩ : ∃ m, n = m + 1 := ⟨n - 1, by omega⟩
    have hv : ReadsBack v := h (key, v) List.mem_cons_self
    have hmembers := @read_members_stringify key _ _ hv
      (fun m hm => h m (List.mem_cons_of_mem _ hm)) n rest (by omega)
    have htext : stringify (.object ((key, v) :: members)) ++ rest = '\x7b' ::
        (quote key ++ ':' :: (stringify v ++ (stringify_members members ++ rest))) := by
      rw [stringify]
      simp
    have hfold := @foldl_assign ((key, v) :: members) [] hkeys
    have hskip : ∀ s, skip (quote key ++ s) = quote key ++ s := fun s =>
      skip_cons (by decide)
    rw [htext, read_value, skip_cons (by decide)]
    simp only [hskip]
    rw [if_neg (by decide), if_neg (by decide), if_pos (by decide), if_neg (by simp [quote]),
      hmembers, Option.map_some]
    simp only [hfold, List.nil_append]

/-- Every value with different keys is read back. -/
theorem reads_back {v : Value} (hv : v.Valid) : ReadsBack v := by
  induction hv with
  | null =>
    intro n rest hn _
    obtain ⟨n, rfl⟩ : ∃ m, n = m + 1 := ⟨n - 1, by simp [stringify] at hn; omega⟩
    have hread := read_word_behind "ull".toList .null rest
    rw [show stringify .null = 'n' :: "ull".toList by simp [stringify], List.cons_append,
      read_value, skip_cons (by decide)]
    simpa using hread
  | bool b =>
    intro n rest hn _
    obtain ⟨n, rfl⟩ : ∃ m, n = m + 1 := ⟨n - 1, by cases b <;> simp [stringify] at hn <;> omega⟩
    cases b
    · have hread := read_word_behind "alse".toList (.bool false) rest
      rw [show stringify (.bool false) = 'f' :: "alse".toList by simp [stringify],
        List.cons_append, read_value, skip_cons (by decide)]
      simpa using hread
    · have hread := read_word_behind "rue".toList (.bool true) rest
      rw [show stringify (.bool true) = 't' :: "rue".toList by simp [stringify],
        List.cons_append, read_value, skip_cons (by decide)]
      simpa using hread
  | number m =>
    intro n rest hn hrest
    obtain ⟨c, s, htext, hc⟩ := number_head m
    obtain ⟨hblank, -, h1, h2, h3, h4, h5, h6⟩ := number_char_other hc
    have hread := read_number_text m hrest
    rw [stringify] at hn ⊢
    rw [htext] at hn hread ⊢
    obtain ⟨n, rfl⟩ : ∃ k, n = k + 1 := ⟨n - 1, by simp at hn; omega⟩
    rw [List.cons_append, read_value, skip_cons hblank]
    simpa [h1, h2, h3, h4, h5, h6] using hread
  | string s =>
    intro n rest hn _
    obtain ⟨n, rfl⟩ : ∃ m, n = m + 1 := ⟨n - 1, by simp [stringify, quote] at hn; omega⟩
    rw [stringify, quote, List.cons_append, List.cons_append, read_value, skip_cons (by decide)]
    simp [read_quote]
  | array _ ih => exact reads_back_array ih
  | object hkeys _ ih => exact reads_back_object hkeys ih

theorem parse_stringify {v : Value} (hv : v.Valid) : parse (stringify v) = some v := by
  have hread := reads_back hv ((stringify v).length + 1) [] (by omega) (fun c hc => by simp at hc)
  rw [List.append_nil] at hread
  rw [parse, hread]
  simp [skip]

end json_texts
