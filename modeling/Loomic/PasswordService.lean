-- The stored password hashes (PasswordService.cpp): `hash` writes the salt and
-- the key in hexadecimal between colons, and `verify` finds the colons and reads
-- them back. PBKDF2 itself is a function of its arguments.
import Mathlib.Data.Vector.Basic
import Loomic.Frame
import Loomic.Lib.Separators
import Loomic.Uuid

open loomic.frame loomic.uuid

namespace loomic.password_service

/-! ## The code -/

def ITERATIONS : Int := 100000

def SALT_LEN : Nat := 16

def KEY_LEN : Nat := 32

/-- An array of `n` octets. -/
abbrev Octets (n : Nat) := List.Vector UInt8 n

/-- `PKCS5_PBKDF2_HMAC` with SHA-256: the octets of the password with the length that is
passed for it, the salt and the iterations give the key. -/
abbrev Pbkdf2 := Bytes → Int → Octets SALT_LEN → Int → Octets KEY_LEN

/-- `static_cast<int>` of a size. -/
def to_int (n : Nat) : Int := (n : Int).bmod (2 ^ 32)

def to_hex (data : Bytes) : List Char := data.flatMap fun b => hex 2 b.toNat

def nibble (c : Char) : Int :=
  if '0' ≤ c ∧ c ≤ '9' then c.toNat - '0'.toNat
  else if 'a' ≤ c ∧ c ≤ 'f' then c.toNat - 'a'.toNat + 10
  else if 'A' ≤ c ∧ c ≤ 'F' then c.toNat - 'A'.toNat + 10
  else -1

/-- The loop of `from_hex`. The outer `none` is a read past the end of the string, the
inner one is `false`. -/
def from_hex_loop : (len : Nat) → List Char → Option (Option (Octets len))
  | 0, _ => some (some List.Vector.nil)
  | len + 1, hi :: lo :: rest =>
    if nibble hi < 0 ∨ nibble lo < 0 then some none
    else
      let out := UInt8.ofNat (16 * (nibble hi).toNat + (nibble lo).toNat)
      (from_hex_loop len rest).map fun r => r.map fun octets => out ::ᵥ octets
  | _ + 1, _ => none

/-- The size is counted in characters. Below 2^32 bytes this makes no difference, as a character
beyond ASCII is no digit. -/
def from_hex (hex : List Char) (len : Nat) : Option (Option (Octets len)) :=
  if to_int hex.length ≠ len * 2 then some none else from_hex_loop len hex

/-- `find(':', pos)`. `npos` is `none`. -/
def find (s : List Char) (pos : Nat) : Option Nat :=
  ((s.drop pos).idxOf? ':').map fun i => pos + i

/-- `p + 1`, which wraps to 0 from `npos`. -/
def next : Option Nat → Nat
  | none => 0
  | some p => p + 1

/-- `substr`. `none` is the exception `out_of_range`. -/
def substr (s : List Char) (pos n : Nat) : Option (List Char) :=
  if pos ≤ s.length then some ((s.drop pos).take n) else none

def is_space (c : Char) : Bool := c = ' ' || (9 ≤ c.toNat && c.toNat ≤ 13)

/-- `std::stoi`: blanks, a sign and digits. What follows the digits is not looked at. `none`
is an exception. -/
def stoi (s : List Char) : Option Int :=
  let s := s.dropWhile is_space
  let (negative, s) :=
    match s with
    | '-' :: rest => (true, rest)
    | '+' :: rest => (false, rest)
    | s => (false, s)
  let digits := s.takeWhile Char.isDigit
  let n : Int := digits.foldl (fun n c => 10 * n + (c.toNat - '0'.toNat)) 0
  let n := if negative then -n else n
  if digits = [] then none else if -2 ^ 31 ≤ n ∧ n < 2 ^ 31 then some n else none

/-- What `verify` reads from a stored string. -/
structure Stored where
  iterations : Int
  salt : Octets SALT_LEN
  key : Octets KEY_LEN

/-- The outer `none` of the next three is an exception or a read past the end, the inner
one is `co_return false`. This one reads the key field of a stored string. -/
def read_key (iterations : Int) (salt : Octets SALT_LEN) (hex : List Char) :
    Option (Option Stored) :=
  (from_hex hex KEY_LEN).map fun key => key.map fun key => { iterations, salt, key }

/-- The salt field, and then the key field, which `hex_key` finds. -/
def read_salt (iterations : Int) (hex : List Char) (hex_key : Option (List Char)) :
    Option (Option Stored) :=
  (from_hex hex SALT_LEN).bind fun salt =>
    match salt with
    | none => some none
    | some salt => hex_key.bind (read_key iterations salt)

/-- The part of `verify` that reads the stored string. -/
def read_stored (stored_hash : String) : Option (Option Stored) :=
  let s := stored_hash.toList
  let p1 := find s 0
  let p2 := find s (next p1)
  let p3 := find s (next p2)
  let p4 := find s (next p3)
  match p1, p2, p3, p4 with
  | some _, some p2, some p3, some p4 =>
    (substr s (p2 + 1) (p3 - p2 - 1)).bind fun iter =>
      match stoi iter with
      | none => some none
      | some iterations =>
        (substr s (p3 + 1) (p4 - p3 - 1)).bind fun hex_salt =>
          read_salt iterations hex_salt (substr s (p4 + 1) s.length)
  | _, _, _, _ => some none

/-- `PasswordService::hash`, with the salt that `RAND_bytes` gives. -/
def hash (pbkdf2 : Pbkdf2) (plaintext : Bytes) (salt : Octets SALT_LEN) : String :=
  let key := pbkdf2 plaintext (to_int plaintext.length) salt ITERATIONS
  "pbkdf2:sha256:" ++ toString ITERATIONS ++ ":" ++ String.ofList (to_hex salt.toList) ++ ":" ++
    String.ofList (to_hex key.toList)

/-- `PasswordService::verify`. `none` is an exception or a read past the end. -/
def verify (pbkdf2 : Pbkdf2) (plaintext : Bytes) (stored_hash : String) : Option Bool :=
  (read_stored stored_hash).map fun stored =>
    match stored with
    | none => false
    | some stored =>
      decide (pbkdf2 plaintext (to_int plaintext.length) stored.salt stored.iterations =
        stored.key)

/-! ## The colons -/

/-- The five fields of a stored string. The first four end at the first four colons. -/
structure Fields (stored_hash : String) where
  algorithm : List Char
  digest : List Char
  iterations : List Char
  salt : List Char
  key : List Char
  text : stored_hash.toList =
    algorithm ++ ':' :: (digest ++ ':' :: (iterations ++ ':' :: (salt ++ ':' :: key)))
  algorithm_plain : ':' ∉ algorithm
  digest_plain : ':' ∉ digest
  iterations_plain : ':' ∉ iterations
  salt_plain : ':' ∉ salt

/-- The first field of what is left ends at the next colon. -/
theorem find_field {s before field rest : List Char} (hs : s = before ++ (field ++ ':' :: rest))
    (h : ':' ∉ field) : find s before.length = some (before.length + field.length) := by
  simp [find, hs, separators.idxOf_piece h rest]

theorem find_none {s before rest : List Char} (hs : s = before ++ rest) (h : ':' ∉ rest) :
    find s before.length = none := by
  simp [find, hs, List.idxOf?_eq_none_iff.2 h]

theorem substr_field {s before field rest : List Char} (hs : s = before ++ (field ++ rest)) :
    substr s before.length field.length = some field := by
  simp [substr, hs]

theorem substr_rest {s before rest : List Char} (hs : s = before ++ rest) :
    substr s before.length s.length = some rest := by
  simp [substr, hs]

/-- What is left has no more colon, or `find` goes on behind its first field. -/
theorem next_field {s before rest : List Char} (hs : s = before ++ rest) :
    (':' ∉ rest ∧ find s before.length = none) ∨
      ∃ field rest', ':' ∉ field ∧ rest = field ++ ':' :: rest' ∧
        next (find s before.length) = (before ++ (field ++ [':'])).length ∧
        s = (before ++ (field ++ [':'])) ++ rest' := by
  by_cases h : ':' ∈ rest
  · obtain ⟨field, rest', hrest, hfield⟩ := List.eq_append_cons_of_mem h
    have hfind := find_field (hrest ▸ hs) hfield
    refine .inr ⟨field, rest', hfield, hrest, ?_, by simp [hs, hrest]⟩
    simp [hfind, next]
    omega
  · exact .inl ⟨h, find_none hs h⟩

/-- What the fields of a string with four colons are read to. -/
theorem read_fields {stored_hash : String} (f : Fields stored_hash) :
    read_stored stored_hash =
      match stoi f.iterations with
      | none => some none
      | some iterations => read_salt iterations f.salt (some f.key) := by
  obtain ⟨algorithm, digest, iterations, salt, key, hs, ha, hd, hi, hsalt⟩ := f
  dsimp only
  generalize hn1 : algorithm ++ [':'] = before1
  generalize hn2 : before1 ++ (digest ++ [':']) = before2
  generalize hn3 : before2 ++ (iterations ++ [':']) = before3
  generalize hn4 : before3 ++ (salt ++ [':']) = before4
  have hl1 : before1.length = algorithm.length + 1 := by simp [← hn1]
  have hl2 : before2.length = before1.length + digest.length + 1 := by simp [← hn2]; omega
  have hl3 : before3.length = before2.length + iterations.length + 1 := by simp [← hn3]; omega
  have hl4 : before4.length = before3.length + salt.length + 1 := by simp [← hn4]; omega
  have hs1 : stored_hash.toList = [] ++ (algorithm ++
      ':' :: (digest ++ ':' :: (iterations ++ ':' :: (salt ++ ':' :: key)))) := hs
  have h1 : find stored_hash.toList 0 = some algorithm.length := by
    simpa using find_field hs1 ha
  have hs2 : stored_hash.toList =
      before1 ++ (digest ++ ':' :: (iterations ++ ':' :: (salt ++ ':' :: key))) := by
    simp [hs, ← hn1]
  have hs3 : stored_hash.toList = before2 ++ (iterations ++ ':' :: (salt ++ ':' :: key)) := by
    simp [hs2, ← hn2]
  have hs4 : stored_hash.toList = before3 ++ (salt ++ ':' :: key) := by
    simp [hs3, ← hn3]
  have hs5 : stored_hash.toList = before4 ++ key := by
    simp [hs4, ← hn4]
  have h2 := find_field hs2 hd
  have h3 := find_field hs3 hi
  have h4 := find_field hs4 hsalt
  -- The lengths that `verify` computes from the positions of the colons.
  have hw3 : before2.length + iterations.length - (before1.length + digest.length) - 1 =
      iterations.length := by omega
  have hw4 : before3.length + salt.length - (before2.length + iterations.length) - 1 =
      salt.length := by omega
  unfold read_stored
  simp only [h1, next, ← hl1, h2, ← hl2, h3, ← hl3, h4, ← hl4, hw3, hw4]
  rw [substr_field hs3, substr_field hs4, substr_rest hs5, Option.bind_some]
  cases stoi iterations with
  | none => simp only []
  | some n => exact Option.bind_some salt _

theorem read_without_colon {stored_hash : String} {s : List Char} {p1 p2 p3 p4 : Option Nat}
    (hs : stored_hash.toList = s) (h1 : find s 0 = p1) (h2 : find s (next p1) = p2)
    (h3 : find s (next p2) = p3) (h4 : find s (next p3) = p4)
    (h : p1 = none ∨ p2 = none ∨ p3 = none ∨ p4 = none) :
    read_stored stored_hash = some none := by
  unfold read_stored
  simp only [hs, h1, h2, h3, h4]
  rcases h with rfl | rfl | rfl | rfl
  · simp
  · cases p1 <;> simp
  · cases p1 <;> cases p2 <;> simp
  · cases p1 <;> cases p2 <;> cases p3 <;> simp

/-- A string has its fields, or it has too few colons and is refused. -/
theorem fields_or_refused (stored_hash : String) :
    (stored_hash.toList.count ':' < 4 ∧ read_stored stored_hash = some none) ∨
      (4 ≤ stored_hash.toList.count ':' ∧ Nonempty (Fields stored_hash)) := by
  generalize hs : stored_hash.toList = s
  generalize hp1 : find s 0 = p1
  generalize hp2 : find s (next p1) = p2
  generalize hp3 : find s (next p2) = p3
  generalize hp4 : find s (next p3) = p4
  have hrefused := read_without_colon hs hp1 hp2 hp3 hp4
  have hcount : ∀ {l : List Char}, ':' ∉ l → l.count ':' = 0 := List.count_eq_zero.2
  rcases next_field (List.nil_append s).symm with
    ⟨h, hf⟩ | ⟨algorithm, s1, ha, hs1, hn, hr⟩
  · exact .inl ⟨by simp [hcount h], hrefused (.inl (hp1.symm.trans hf))⟩
  rw [List.length_nil, hp1] at hn
  rcases next_field hr with ⟨h, hf⟩ | ⟨digest, s2, hd, hs2, hn2, hr2⟩
  · rw [← hn, hp2] at hf
    exact .inl ⟨by simp [hs1, hcount h, hcount ha], hrefused (.inr (.inl hf))⟩
  rw [← hn, hp2] at hn2
  rcases next_field hr2 with ⟨h, hf⟩ | ⟨iterations, s3, hi, hs3, hn3, hr3⟩
  · rw [← hn2, hp3] at hf
    exact .inl ⟨by simp [hs1, hs2, hcount h, hcount ha, hcount hd],
      hrefused (.inr (.inr (.inl hf)))⟩
  rw [← hn2, hp3] at hn3
  rcases next_field hr3 with ⟨h, hf⟩ | ⟨salt, key, hsalt, hs4, -, -⟩
  · rw [← hn3, hp4] at hf
    exact .inl ⟨by simp [hs1, hs2, hs3, hcount h, hcount ha, hcount hd, hcount hi],
      hrefused (.inr (.inr (.inr hf)))⟩
  refine .inr ⟨?_, ⟨algorithm, digest, iterations, salt, key, ?_, ha, hd, hi, hsalt⟩⟩
  · simp [hs1, hs2, hs3, hs4]
    omega
  · rw [hs, hs1, hs2, hs3, hs4]

/-! ## The hexadecimal fields -/

def HexDigit (c : Char) : Prop :=
  ('0' ≤ c ∧ c ≤ '9') ∨ ('a' ≤ c ∧ c ≤ 'f') ∨ ('A' ≤ c ∧ c ≤ 'F')

instance : DecidablePred HexDigit := fun _ => inferInstanceAs (Decidable (_ ∨ _))

/-- The field is `n` hexadecimal digits. -/
def Exact (n : Nat) (field : List Char) : Prop := field.length = n ∧ ∀ c ∈ field, HexDigit c

/-- What `from_hex` asks for: the size of the field is compared as an `int`. -/
def Reads (n : Nat) (field : List Char) : Prop :=
  field.length % 2 ^ 32 = n ∧ ∀ c ∈ field.take n, HexDigit c

theorem nibble_nonneg (c : Char) : ¬ nibble c < 0 ↔ HexDigit c := by
  unfold nibble HexDigit
  split
  · rename_i h
    simp only [h, and_self, true_or, iff_true, not_lt]
    have : '0'.toNat ≤ c.toNat := h.1
    omega
  split
  · rename_i h
    simp only [h, and_self, true_or, or_true, iff_true, not_lt]
    have : 'a'.toNat ≤ c.toNat := h.1
    omega
  split
  · rename_i h
    simp only [h, and_self, or_true, iff_true, not_lt]
    have : 'A'.toNat ≤ c.toNat := h.1
    omega
  · simp_all

theorem to_int_eq (n len : Nat) (h : len * 2 < 2 ^ 31) :
    to_int n = len * 2 ↔ n % 2 ^ 32 = len * 2 := by
  unfold to_int
  rw [Int.bmod_def]
  omega

/-- The loop reads nothing outside a field that is long enough, and ends well where the
digits are. -/
theorem from_hex_loop_spec (len : Nat) (field : List Char) (h : len * 2 ≤ field.length) :
    ∃ r, from_hex_loop len field = some r ∧
      (r.isSome ↔ ∀ c ∈ field.take (len * 2), HexDigit c) := by
  induction len generalizing field with
  | zero => exact ⟨some List.Vector.nil, by simp [from_hex_loop], by simp⟩
  | succ len ih =>
    match field, h with
    | [], h => simp at h
    | [_], h =>
      simp only [List.length_singleton] at h
      omega
    | hi :: lo :: rest, h =>
      have hrest : len * 2 ≤ rest.length := by
        simp only [List.length_cons] at h
        omega
      obtain ⟨r, hr, hdigits⟩ := ih rest hrest
      have htake : (hi :: lo :: rest).take ((len + 1) * 2) = hi :: lo :: rest.take (len * 2) := by
        rw [Nat.succ_mul]
        simp
      by_cases hneg : nibble hi < 0 ∨ nibble lo < 0
      · refine ⟨none, by simp [from_hex_loop, hneg], ?_⟩
        rw [htake]
        simp only [Option.isSome_none, Bool.false_eq_true, false_iff]
        intro hall
        have hhi := (nibble_nonneg hi).2 (hall hi (by simp))
        have hlo := (nibble_nonneg lo).2 (hall lo (by simp))
        exact hneg.elim hhi hlo
      · let out := UInt8.ofNat (16 * (nibble hi).toNat + (nibble lo).toNat)
        have hloop : from_hex_loop (len + 1) (hi :: lo :: rest) =
            some (r.map fun octets => out ::ᵥ octets) := by
          rw [from_hex_loop, if_neg hneg, hr, Option.map_some]
        refine ⟨_, hloop, ?_⟩
        rw [not_or, nibble_nonneg, nibble_nonneg] at hneg
        rw [htake]
        simpa [hneg] using hdigits

theorem from_hex_spec (len : Nat) (field : List Char) (h : len * 2 < 2 ^ 31) :
    ∃ r, from_hex field len = some r ∧ (r.isSome ↔ Reads (len * 2) field) := by
  unfold from_hex Reads
  by_cases hlen : field.length % 2 ^ 32 = len * 2
  · rw [if_neg (not_not.2 ((to_int_eq _ _ h).2 hlen))]
    have hle : len * 2 ≤ field.length := hlen ▸ Nat.mod_le _ _
    obtain ⟨r, hr, hdigits⟩ := from_hex_loop_spec len field hle
    exact ⟨r, hr, hdigits.trans (and_iff_right hlen).symm⟩
  · rw [if_pos (fun heq => hlen ((to_int_eq _ _ h).1 heq))]
    refine ⟨none, rfl, ?_⟩
    simp only [Option.isSome_none, Bool.false_eq_true, false_iff]
    exact fun hreads => hlen hreads.1

/-! ## What `hash` writes -/

theorem nibble_hex_digit {n : Nat} (h : n < 16) : nibble (hex_digit n) = n := by
  have hall : ∀ k : Fin 16, nibble (hex_digit k) = (k : Nat) := by decide
  exact hall ⟨n, h⟩

theorem hex_octet (b : UInt8) :
    hex 2 b.toNat = [hex_digit (b.toNat / 16), hex_digit (b.toNat % 16)] := by
  have hb := b.toNat_lt
  have hhigh : b.toNat / 16 % 16 = b.toNat / 16 := Nat.mod_eq_of_lt (by omega)
  simp [hex, hhigh]

theorem length_to_hex (data : Bytes) : (to_hex data).length = data.length * 2 := by
  induction data with
  | nil => simp [to_hex]
  | cons b bs ih =>
    have hcons : to_hex (b :: bs) = hex 2 b.toNat ++ to_hex bs := by simp [to_hex]
    rw [hcons, hex_octet, List.length_append, ih, List.length_cons]
    simp
    omega

/-- The digits of the octets are read back as the octets. -/
theorem from_hex_loop_to_hex {len : Nat} (data : Octets len) :
    from_hex_loop len (to_hex data.toList) = some (some data) := by
  induction data using List.Vector.inductionOn with
  | nil => simp [from_hex_loop]
  | @cons n b bs ih =>
    have hb := b.toNat_lt
    have hhigh := nibble_hex_digit (n := b.toNat / 16) (by omega)
    have hlow := nibble_hex_digit (n := b.toNat % 16) (by omega)
    have hout : UInt8.ofNat (16 * (nibble (hex_digit (b.toNat / 16))).toNat +
        (nibble (hex_digit (b.toNat % 16))).toNat) = b := by
      rw [hhigh, hlow, Int.toNat_natCast, Int.toNat_natCast, Nat.div_add_mod, UInt8.ofNat_toNat]
    have hneg : ¬ (nibble (hex_digit (b.toNat / 16)) < 0 ∨
        nibble (hex_digit (b.toNat % 16)) < 0) := by
      rw [hhigh, hlow]
      omega
    have hcons : to_hex (b ::ᵥ bs).toList =
        hex_digit (b.toNat / 16) :: hex_digit (b.toNat % 16) :: to_hex bs.toList := by
      simp [to_hex, hex_octet]
    rw [hcons, from_hex_loop, if_neg hneg, ih, Option.map_some, Option.map_some, hout]

theorem from_hex_to_hex {len : Nat} (data : Octets len) (h : len * 2 < 2 ^ 31) :
    from_hex (to_hex data.toList) len = some (some data) := by
  have hsize : (to_hex data.toList).length % 2 ^ 32 = len * 2 := by
    rw [length_to_hex, data.toList_length]
    omega
  rw [from_hex, if_neg (not_not.2 ((to_int_eq _ _ h).2 hsize)), from_hex_loop_to_hex]

theorem colon_not_mem_to_hex (data : Bytes) : ':' ∉ to_hex data := by
  intro h
  obtain ⟨b, -, hb⟩ := List.mem_flatMap.1 h
  have hdigit : ∀ k : Fin 16, hex_digit k ≠ ':' := by decide
  have hlt := b.toNat_lt
  rw [hex_octet] at hb
  simp only [List.mem_cons, List.not_mem_nil, or_false] at hb
  rcases hb with hb | hb
  · exact hdigit ⟨b.toNat / 16, by omega⟩ hb.symm
  · exact hdigit ⟨b.toNat % 16, by omega⟩ hb.symm

theorem toList_written (iterations : String) (salt key : List Char) :
    ("pbkdf2:sha256:" ++ iterations ++ ":" ++ String.ofList salt ++ ":" ++
        String.ofList key).toList =
      "pbkdf2".toList ++ ':' :: ("sha256".toList ++
        ':' :: (iterations.toList ++ ':' :: (salt ++ ':' :: key))) := by
  simp

/-- The fields of what `hash` writes. -/
def hash_fields (pbkdf2 : Pbkdf2) (plaintext : Bytes) (salt : Octets SALT_LEN) :
    Fields (hash pbkdf2 plaintext salt) where
  algorithm := "pbkdf2".toList
  digest := "sha256".toList
  iterations := (toString ITERATIONS).toList
  salt := to_hex salt.toList
  key := to_hex (pbkdf2 plaintext (to_int plaintext.length) salt ITERATIONS).toList
  text := toList_written _ _ _
  algorithm_plain := by decide
  digest_plain := by decide
  iterations_plain := by decide
  salt_plain := colon_not_mem_to_hex _

theorem stoi_ITERATIONS : stoi (toString ITERATIONS).toList = some ITERATIONS := by decide

theorem read_salt_to_hex (iterations : Int) (salt : Octets SALT_LEN) (key : Octets KEY_LEN) :
    read_salt iterations (to_hex salt.toList) (some (to_hex key.toList)) =
      some (some { iterations, salt, key }) := by
  have hsalt := from_hex_to_hex salt (by decide)
  have hkey := from_hex_to_hex key (by decide)
  rw [read_salt, hsalt]
  refine (Option.bind_some _ _).trans ((Option.bind_some _ _).trans ?_)
  rw [read_key, hkey, Option.map_some, Option.map_some]

/-- The salt, the iterations and the key are read back. -/
theorem read_hash (pbkdf2 : Pbkdf2) (plaintext : Bytes) (salt : Octets SALT_LEN) :
    read_stored (hash pbkdf2 plaintext salt) =
      some (some {
        iterations := ITERATIONS
        salt
        key := pbkdf2 plaintext (to_int plaintext.length) salt ITERATIONS }) := by
  have hiter : stoi (hash_fields pbkdf2 plaintext salt).iterations = some ITERATIONS :=
    stoi_ITERATIONS
  rw [read_fields (hash_fields pbkdf2 plaintext salt), hiter]
  exact read_salt_to_hex ITERATIONS salt _

theorem verify_hash (pbkdf2 : Pbkdf2) (p q : Bytes) (salt : Octets SALT_LEN) :
    verify pbkdf2 q (hash pbkdf2 p salt) =
      some (decide (pbkdf2 q (to_int q.length) salt ITERATIONS =
        pbkdf2 p (to_int p.length) salt ITERATIONS)) := by
  rw [verify, read_hash, Option.map_some]

/-! ## What `verify` refuses -/

/-- Fewer than four colons, or a salt or a key that is not 32 or 64 hexadecimal digits. -/
def Malformed (stored_hash : String) : Prop :=
  stored_hash.toList.count ':' < 4 ∨
    ∃ f : Fields stored_hash, ¬ (Exact 32 f.salt ∧ Exact 64 f.key)

/-- A salt and a key that begin with the digits, and whose sizes are 32 and 64 as an `int`
and not both as a size. -/
def Wraps (stored_hash : String) : Prop :=
  ∃ f : Fields stored_hash, (stoi f.iterations).isSome ∧ Reads 32 f.salt ∧ Reads 64 f.key ∧
    ¬ (f.salt.length = 32 ∧ f.key.length = 64)

theorem reads_exact {n : Nat} {field : List Char} (h : Reads n field) :
    Exact n field ↔ field.length = n := by
  refine ⟨fun hexact => hexact.1, fun hlen => ⟨hlen, ?_⟩⟩
  have hdigits := h.2
  rwa [List.take_of_length_le hlen.le] at hdigits

/-- `verify` reads the fields to their end or refuses; it never reads outside them. -/
theorem read_salt_spec (iterations : Int) (salt key : List Char) :
    ∃ r, read_salt iterations salt (some key) = some r ∧
      (r.isSome ↔ Reads 32 salt ∧ Reads 64 key) := by
  obtain ⟨rs, hrs, hsalt⟩ := from_hex_spec SALT_LEN salt (by decide)
  obtain ⟨rk, hrk, hkey⟩ := from_hex_spec KEY_LEN key (by decide)
  rw [read_salt, hrs]
  cases rs with
  | none =>
    refine ⟨none, Option.bind_some _ _, ?_⟩
    have hno : ¬ Reads 32 salt := fun h => by simpa using hsalt.2 h
    simp [hno]
  | some octets =>
    refine ⟨rk.map fun key => { iterations, salt := octets, key }, ?_, ?_⟩
    · refine (Option.bind_some _ _).trans ((Option.bind_some _ _).trans ?_)
      rw [read_key, hrk, Option.map_some]
    · rw [Option.isSome_map, hkey]
      exact (and_iff_right (hsalt.1 rfl)).symm

theorem read_stored_spec {stored_hash : String} (f : Fields stored_hash) :
    ∃ r, read_stored stored_hash = some r ∧
      (r.isSome ↔ (stoi f.iterations).isSome ∧ Reads 32 f.salt ∧ Reads 64 f.key) := by
  rw [read_fields f]
  cases stoi f.iterations with
  | none => exact ⟨none, rfl, by simp⟩
  | some iterations => simpa using read_salt_spec iterations f.salt f.key

theorem verify_refused {stored_hash : String} (h : read_stored stored_hash = some none)
    (pbkdf2 : Pbkdf2) (plaintext : Bytes) : verify pbkdf2 plaintext stored_hash = some false := by
  rw [verify, h, Option.map_some]

/-- What is read is verified for the passwords with its key. -/
theorem verify_read {stored_hash : String} {stored : Stored}
    (h : read_stored stored_hash = some (some stored)) (plaintext : Bytes) :
    verify (fun _ _ _ _ => stored.key) plaintext stored_hash = some true := by
  rw [verify, h, Option.map_some]
  simp

/-- A string whose sizes wrap is verified for some key. -/
theorem wraps_verified {stored_hash : String} (h : Wraps stored_hash) (q : Bytes) :
    ∃ pbkdf2 : Pbkdf2, verify pbkdf2 q stored_hash = some true := by
  obtain ⟨f, hiter, hsalt, hkey, -⟩ := h
  obtain ⟨r, hr, hsome⟩ := read_stored_spec f
  obtain ⟨stored, rfl⟩ := Option.isSome_iff_exists.1 (hsome.2 ⟨hiter, hsalt, hkey⟩)
  exact ⟨_, verify_read hr q⟩

/-- A malformed string is refused exactly if its sizes do not wrap. -/
theorem malformed_refused_iff (stored_hash : String) :
    (Malformed stored_hash → ∀ (pbkdf2 : Pbkdf2) (q : Bytes),
      verify pbkdf2 q stored_hash = some false) ↔ ¬ Wraps stored_hash := by
  constructor
  · rintro hrefused ⟨f, hiter, hsalt, hkey, hlen⟩
    have hmalformed : Malformed stored_hash :=
      .inr ⟨f, fun hexact => hlen ⟨hexact.1.1, hexact.2.1⟩⟩
    obtain ⟨pbkdf2, htrue⟩ := wraps_verified ⟨f, hiter, hsalt, hkey, hlen⟩ []
    rw [hrefused hmalformed] at htrue
    simp at htrue
  · intro hwraps hmalformed pbkdf2 q
    refine verify_refused ?_ pbkdf2 q
    rcases fields_or_refused stored_hash with ⟨-, hrefused⟩ | ⟨hcount, -⟩
    · exact hrefused
    obtain hfew | ⟨f, hexact⟩ := hmalformed
    · omega
    obtain ⟨r, hr, hsome⟩ := read_stored_spec f
    cases r with
    | none => exact hr
    | some stored =>
      obtain ⟨hiter, hsalt, hkey⟩ := hsome.1 rfl
      refine absurd ⟨f, hiter, hsalt, hkey, fun hlen => hexact ?_⟩ hwraps
      exact ⟨(reads_exact hsalt).2 hlen.1, (reads_exact hkey).2 hlen.2⟩

theorem length_le_utf8ByteSize (s : String) : s.length ≤ s.utf8ByteSize := by
  induction s using String.push_induction with
  | empty => exact Nat.le_refl _
  | push s c ih =>
    rw [String.length_push, String.utf8ByteSize_push]
    have hpos := c.utf8Size_pos
    omega

/-- The sizes of a string that a `TEXT` column of Postgres can hold do not wrap. -/
theorem not_wraps_of_size {stored_hash : String} (h : stored_hash.utf8ByteSize < 2 ^ 32) :
    ¬ Wraps stored_hash := by
  rintro ⟨f, -, hsalt, hkey, hlen⟩
  have hle := length_le_utf8ByteSize stored_hash
  have hsum : stored_hash.length =
      f.algorithm.length + (f.digest.length + (f.iterations.length +
        (f.salt.length + (f.key.length + 1) + 1) + 1) + 1) := by
    rw [← String.length_toList, f.text]
    simp
  have hsalt32 : f.salt.length % 2 ^ 32 = 32 := hsalt.1
  have hkey64 : f.key.length % 2 ^ 32 = 64 := hkey.1
  omega

/-- What `hash` writes is read back and verified for the passwords with its key, and a
malformed string that the column can hold is refused. -/
theorem hashes_verify_and_malformed_is_refused (pbkdf2 : Pbkdf2) (p q : Bytes)
    (salt : Octets SALT_LEN) (stored_hash : String) :
    (read_stored (hash pbkdf2 p salt) =
        some (some {
          iterations := ITERATIONS
          salt
          key := pbkdf2 p (to_int p.length) salt ITERATIONS }) ∧
      verify pbkdf2 q (hash pbkdf2 p salt) =
        some (decide (pbkdf2 q (to_int q.length) salt ITERATIONS =
          pbkdf2 p (to_int p.length) salt ITERATIONS))) ∧
    (stored_hash.utf8ByteSize < 2 ^ 32 → Malformed stored_hash →
      verify pbkdf2 q stored_hash = some false) := by
  refine ⟨⟨read_hash pbkdf2 p salt, verify_hash pbkdf2 p q salt⟩, fun hsize hmalformed => ?_⟩
  have hwraps := not_wraps_of_size hsize
  exact (malformed_refused_iff stored_hash).2 hwraps hmalformed pbkdf2 q

/-- A string that ends behind the iterations. -/
theorem a_cut_string_is_refused :
    verify (fun _ _ _ _ => List.Vector.replicate KEY_LEN 0) [] "pbkdf2:sha256:100000" =
      some false :=
  (hashes_verify_and_malformed_is_refused _ [] [] (List.Vector.replicate SALT_LEN 0)
    "pbkdf2:sha256:100000").2 (by decide) (.inl (by decide))

end loomic.password_service
