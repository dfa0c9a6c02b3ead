-- The wire format of protobuf. A message is a sequence of fields, each a tag with the number and
-- the wire type of the field, and a value. Of a field that is there more than once, the last
-- value counts.
import Loomic.Lib.Chunks
import Loomic.Lib.Varint

namespace wire

inductive WireType
  | varint
  | fixed64
  | delimited
  | start_group
  | end_group
  | fixed32
  deriving DecidableEq

def WireType.code : WireType → Nat
  | .varint => 0
  | .fixed64 => 1
  | .delimited => 2
  | .start_group => 3
  | .end_group => 4
  | .fixed32 => 5

inductive Value
  | varint (n : Nat)
  | fixed64 (bytes : List UInt8)
  | delimited (bytes : List UInt8)
  | start_group
  | end_group
  | fixed32 (bytes : List UInt8)
  deriving DecidableEq

def Value.wire_type : Value → WireType
  | .varint _ => .varint
  | .fixed64 _ => .fixed64
  | .delimited _ => .delimited
  | .start_group => .start_group
  | .end_group => .end_group
  | .fixed32 _ => .fixed32

structure Field where
  number : Nat
  value : Value
  deriving DecidableEq

/-! ## Fields -/

/-- A varint has ten bytes at most. -/
def read_varint (bytes : List UInt8) : Option (Nat × List UInt8) := varint.read 10 0 0 bytes

/-- Bytes that are all there. -/
def read_bytes (n : Nat) (bytes : List UInt8) : Option (List UInt8 × List UInt8) :=
  if n ≤ bytes.length then some (bytes.take n, bytes.drop n) else none

def read_value (code : Nat) (bytes : List UInt8) : Option (Value × List UInt8) :=
  match code with
  | 0 => (read_varint bytes).map fun (n, rest) => (.varint n, rest)
  | 1 => (read_bytes 8 bytes).map fun (bytes, rest) => (.fixed64 bytes, rest)
  | 2 => (read_varint bytes).bind fun (n, rest) =>
    (read_bytes n rest).map fun (bytes, rest) => (.delimited bytes, rest)
  | 3 => some (.start_group, bytes)
  | 4 => some (.end_group, bytes)
  | 5 => (read_bytes 4 bytes).map fun (bytes, rest) => (.fixed32 bytes, rest)
  | _ => none

def MAX_FIELD_NUMBER : Nat := 2 ^ 29 - 1

/-- The field at the start of the bytes, and what follows it. -/
def read_field (bytes : List UInt8) : Option (Field × List UInt8) :=
  (read_varint bytes).bind fun (tag, rest) =>
    if 0 < tag >>> 3 ∧ tag >>> 3 ≤ MAX_FIELD_NUMBER then
      (read_value (tag &&& 7) rest).map fun (value, rest) =>
        ({ number := tag >>> 3, value := value }, rest)
    else none

section Stable

variable {bytes rest : List UInt8}

theorem read_bytes_le {n : Nat} {taken : List UInt8} (h : read_bytes n bytes = some (taken, rest)) :
    rest.length ≤ bytes.length := by
  obtain ⟨-, hsome⟩ := Option.ite_none_right_eq_some.mp h
  obtain ⟨-, rfl⟩ := Prod.mk.inj (Option.some.inj hsome)
  rw [List.length_drop]
  omega

theorem read_bytes_stable {n : Nat} {taken : List UInt8} (more : List UInt8)
    (h : read_bytes n bytes = some (taken, rest)) :
    read_bytes n (bytes ++ more) = some (taken, rest ++ more) := by
  obtain ⟨hle, hsome⟩ := Option.ite_none_right_eq_some.mp h
  obtain ⟨rfl, rfl⟩ := Prod.mk.inj (Option.some.inj hsome)
  unfold read_bytes
  rw [List.length_append, if_pos (by omega), List.take_append_of_le_length hle,
    List.drop_append_of_le_length hle]

theorem read_value_le {code : Nat} {value : Value}
    (h : read_value code bytes = some (value, rest)) : rest.length ≤ bytes.length := by
  unfold read_value at h
  split at h
  · obtain ⟨⟨n, rest'⟩, hread, hvalue⟩ := Option.map_eq_some_iff.mp h
    obtain ⟨-, rfl⟩ := Prod.mk.inj hvalue
    exact (varint.read_shortens hread).le
  · obtain ⟨⟨taken, rest'⟩, hread, hvalue⟩ := Option.map_eq_some_iff.mp h
    obtain ⟨-, rfl⟩ := Prod.mk.inj hvalue
    exact read_bytes_le hread
  · obtain ⟨⟨n, rest'⟩, hlength, hvalue⟩ := Option.bind_eq_some_iff.mp h
    obtain ⟨⟨taken, rest''⟩, hread, hvalue⟩ := Option.map_eq_some_iff.mp hvalue
    obtain ⟨-, rfl⟩ := Prod.mk.inj hvalue
    exact (read_bytes_le hread).trans (varint.read_shortens hlength).le
  · obtain ⟨-, rfl⟩ := Prod.mk.inj (Option.some.inj h)
    exact le_rfl
  · obtain ⟨-, rfl⟩ := Prod.mk.inj (Option.some.inj h)
    exact le_rfl
  · obtain ⟨⟨taken, rest'⟩, hread, hvalue⟩ := Option.map_eq_some_iff.mp h
    obtain ⟨-, rfl⟩ := Prod.mk.inj hvalue
    exact read_bytes_le hread
  · cases h

theorem read_value_stable {code : Nat} {value : Value} (more : List UInt8)
    (h : read_value code bytes = some (value, rest)) :
    read_value code (bytes ++ more) = some (value, rest ++ more) := by
  unfold read_value at h ⊢
  split at h
  · obtain ⟨⟨n, rest'⟩, hread, hvalue⟩ := Option.map_eq_some_iff.mp h
    obtain ⟨rfl, rfl⟩ := Prod.mk.inj hvalue
    exact Option.map_eq_some_iff.mpr ⟨_, varint.read_stable more hread, rfl⟩
  · obtain ⟨⟨taken, rest'⟩, hread, hvalue⟩ := Option.map_eq_some_iff.mp h
    obtain ⟨rfl, rfl⟩ := Prod.mk.inj hvalue
    exact Option.map_eq_some_iff.mpr ⟨_, read_bytes_stable more hread, rfl⟩
  · obtain ⟨⟨n, rest'⟩, hlength, hvalue⟩ := Option.bind_eq_some_iff.mp h
    obtain ⟨⟨taken, rest''⟩, hread, hvalue⟩ := Option.map_eq_some_iff.mp hvalue
    obtain ⟨rfl, rfl⟩ := Prod.mk.inj hvalue
    exact Option.bind_eq_some_iff.mpr ⟨_, varint.read_stable more hlength,
      Option.map_eq_some_iff.mpr ⟨_, read_bytes_stable more hread, rfl⟩⟩
  · obtain ⟨rfl, rfl⟩ := Prod.mk.inj (Option.some.inj h)
    rfl
  · obtain ⟨rfl, rfl⟩ := Prod.mk.inj (Option.some.inj h)
    rfl
  · obtain ⟨⟨taken, rest'⟩, hread, hvalue⟩ := Option.map_eq_some_iff.mp h
    obtain ⟨rfl, rfl⟩ := Prod.mk.inj hvalue
    exact Option.map_eq_some_iff.mpr ⟨_, read_bytes_stable more hread, rfl⟩
  · cases h

theorem read_field_eq_some {field : Field} : read_field bytes = some (field, rest) ↔
    ∃ tag after, read_varint bytes = some (tag, after) ∧
      (0 < tag >>> 3 ∧ tag >>> 3 ≤ MAX_FIELD_NUMBER) ∧ field.number = tag >>> 3 ∧
      read_value (tag &&& 7) after = some (field.value, rest) := by
  unfold read_field
  constructor
  · intro h
    obtain ⟨⟨tag, after⟩, htag, h⟩ := Option.bind_eq_some_iff.mp h
    obtain ⟨hnumber, h⟩ := Option.ite_none_right_eq_some.mp h
    obtain ⟨⟨value, rest'⟩, hvalue, hfield⟩ := Option.map_eq_some_iff.mp h
    obtain ⟨rfl, rfl⟩ := Prod.mk.inj hfield
    exact ⟨tag, after, htag, hnumber, rfl, hvalue⟩
  · rintro ⟨tag, after, htag, hnumber, hfield, hvalue⟩
    rw [htag, Option.bind_some]
    dsimp only
    rw [if_pos hnumber, hvalue, Option.map_some, ← hfield]

theorem read_field_shortens {field : Field} (h : read_field bytes = some (field, rest)) :
    rest.length < bytes.length := by
  obtain ⟨tag, after, htag, -, -, hvalue⟩ := read_field_eq_some.mp h
  exact (read_value_le hvalue).trans_lt (varint.read_shortens htag)

theorem read_field_stable {field : Field} (more : List UInt8)
    (h : read_field bytes = some (field, rest)) :
    read_field (bytes ++ more) = some (field, rest ++ more) := by
  obtain ⟨tag, after, htag, hnumber, hfield, hvalue⟩ := read_field_eq_some.mp h
  exact read_field_eq_some.mpr ⟨tag, after ++ more, varint.read_stable more htag, hnumber, hfield,
    read_value_stable more hvalue⟩

end Stable

def field_splitter : chunks.Splitter UInt8 Field where
  next := read_field
  shortens := read_field_shortens
  stable := read_field_stable

/-- The fields, if the bytes hold whole fields and nothing else. -/
def fields (bytes : List UInt8) : Option (List Field) :=
  if (field_splitter.extract bytes).2 = [] then some (field_splitter.extract bytes).1 else none

/-! ## Groups -/

/-- The fields outside the groups, if each group that is open is ended. A group is there as the
field that starts it. -/
def top_level : (groups : List Nat) → List Field → Option (List Field)
  | [], [] => some []
  | _ :: _, [] => none
  | [], field :: fields =>
    match field.value with
    | .start_group => (top_level [field.number] fields).map (field :: ·)
    | .end_group => none
    | _ => (top_level [] fields).map (field :: ·)
  | group :: groups, field :: fields =>
    match field.value with
    | .start_group => top_level (field.number :: group :: groups) fields
    | .end_group => if field.number = group then top_level groups fields else none
    | _ => top_level (group :: groups) fields

def parse (bytes : List UInt8) : Option (List Field) := (fields bytes).bind (top_level [])

/-- A field that is no group. -/
def Plain (field : Field) : Prop := field.value ≠ .start_group ∧ field.value ≠ .end_group

theorem top_level_plain {fields : List Field} (h : ∀ field ∈ fields, Plain field) :
    top_level [] fields = some fields := by
  induction fields with
  | nil => rfl
  | cons field fields ih =>
    obtain ⟨hstart, hend⟩ := h field List.mem_cons_self
    have hrest := ih fun other hother => h other (List.mem_cons_of_mem _ hother)
    unfold top_level
    split
    · contradiction
    · contradiction
    · rw [hrest, Option.map_some]

/-- Whole fields without groups are parsed as they are. -/
theorem parse_plain {bytes : List UInt8} {items : List Field}
    (h : field_splitter.extract bytes = (items, [])) (hplain : ∀ field ∈ items, Plain field) :
    parse bytes = some items := by
  unfold parse fields
  rw [h, if_pos rfl, Option.bind_some, top_level_plain hplain]

/-- Bytes behind the last whole field are refused. -/
theorem parse_of_rest {bytes : List UInt8} (h : (field_splitter.extract bytes).2 ≠ []) :
    parse bytes = none := by
  unfold parse fields
  rw [if_neg h, Option.bind_none]

/-! ## Values -/

/-- The declared fields have the declared types. -/
def Conforms (types : Nat → Option WireType) (fields : List Field) : Prop :=
  ∀ field ∈ fields, ∀ type ∈ types field.number, field.value.wire_type = type

instance (types : Nat → Option WireType) (fields : List Field) :
    Decidable (Conforms types fields) :=
  inferInstanceAs (Decidable (∀ field ∈ fields, ∀ type ∈ types field.number,
    field.value.wire_type = type))

def Field.varint_of (number : Nat) (field : Field) : Option Nat :=
  match field.value with
  | .varint n => if field.number = number then some n else none
  | _ => none

def Field.bytes_of (number : Nat) (field : Field) : Option (List UInt8) :=
  match field.value with
  | .delimited bytes => if field.number = number then some bytes else none
  | _ => none

/-- The last value of a field. -/
def last {α : Type*} (value_of : Field → Option α) (fields : List Field) : Option α :=
  fields.reverse.findSome? value_of

theorem last_append_one {α : Type*} (value_of : Field → Option α) (fields : List Field)
    (field : Field) :
    last value_of (fields ++ [field]) = (value_of field).or (last value_of fields) := by
  unfold last
  rw [List.reverse_append, List.reverse_singleton, List.singleton_append, List.findSome?_cons]
  cases value_of field <;> rfl

/-- A number that does not fit is cast. -/
def uint64 (n : Nat) : Nat := n % 2 ^ 64

def int64 (n : Nat) : Int := (n : Int).bmod (2 ^ 64)

def int32 (n : Nat) : Int := (n : Int).bmod (2 ^ 32)

theorem uint64_of_lt {n : Nat} (h : n < 2 ^ 64) : uint64 n = n := Nat.mod_eq_of_lt h

/-- A number that is not negative is the varint itself. -/
theorem int64_of_nonneg {n : Nat} (h : n < 2 ^ 64) (hnonneg : 0 ≤ int64 n) : int64 n = n := by
  unfold int64 at hnonneg ⊢
  rw [Int.bmod_def] at hnonneg ⊢
  split at hnonneg <;> split <;> omega

end wire
