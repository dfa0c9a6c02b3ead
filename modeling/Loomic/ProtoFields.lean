-- What decodeChatMessage makes of any bytes, beside what a parser of chat.proto makes of them.
-- The decoder goes by the field numbers, and does not compare the wire types and the lengths
-- with the payload.
import Loomic.ChatFrames
import Loomic.Lib.Wire

open loomic.chat_frames loomic.frame

namespace loomic.proto_fields

/-! ## The parser of chat.proto -/

/-- The declared fields of `ChatMessage`. -/
def field_types : Nat → Option wire.WireType
  | 1 | 2 | 3 | 5 | 6 => some .varint
  | 4 => some .delimited
  | _ => none

structure ParsedMessage where
  msg_id : Nat
  sender_id : Nat
  recipient_id : Nat
  content : Bytes
  timestamp_ms : Int
  msg_type : Int
  deriving DecidableEq

/-- A field that is not there has its default. -/
def message_of (fields : List wire.Field) : ParsedMessage where
  msg_id := wire.uint64 ((wire.last (wire.Field.varint_of 1) fields).getD 0)
  sender_id := wire.uint64 ((wire.last (wire.Field.varint_of 2) fields).getD 0)
  recipient_id := wire.uint64 ((wire.last (wire.Field.varint_of 3) fields).getD 0)
  content := (wire.last (wire.Field.bytes_of 4) fields).getD []
  timestamp_ms := wire.int64 ((wire.last (wire.Field.varint_of 5) fields).getD 0)
  msg_type := wire.int32 ((wire.last (wire.Field.varint_of 6) fields).getD 0)

/-- The fields of a well-formed `ChatMessage`. -/
def parse_fields (payload : Bytes) : Option (List wire.Field) :=
  (wire.parse payload).filter (wire.Conforms field_types ·)

def parse_chat_message (payload : Bytes) : Option ParsedMessage :=
  (parse_fields payload).map message_of

/-- A record is made of a well-formed payload only, and has the values of the parser. -/
def Sound (payload : Bytes) (direction : ChatMessageDirection) (now : Nat) : Prop :=
  ∀ record, decode_chat_message payload direction now = some record →
    ∃ message, parse_chat_message payload = some message ∧
      record.id = toString message.msg_id ∧
      record.sender_id = toString message.sender_id ∧
      record.recipient_id = toString message.recipient_id ∧
      record.content = text_decode message.content ∧
      (record.timestamp_ms : Int) = message.timestamp_ms

/-! ## The items of the loop -/

/-- What one turn of the loop reads: a tag, a varint, and the bytes whose length the varint is,
as far as they are there. -/
structure Item where
  number : Nat
  wire_type : Nat
  value : Nat
  content : Bytes
  deriving DecidableEq

/-- The decoder has no case for the field. -/
def Unknown (number : Nat) : Prop := number = 0 ∨ 6 < number

instance (number : Nat) : Decidable (Unknown number) :=
  inferInstanceAs (Decidable (number = 0 ∨ 6 < number))

/-- The varint of the field is a length. -/
def HasLength (number wire_type : Nat) : Prop := number = 4 ∨ Unknown number ∧ wire_type = 2

instance (number wire_type : Nat) : Decidable (HasLength number wire_type) :=
  inferInstanceAs (Decidable (number = 4 ∨ Unknown number ∧ wire_type = 2))

def read_item (payload : Bytes) : Option (Item × Bytes) :=
  (read_varint payload).bind fun (tag, payload) =>
    let number := tag >>> 3
    let wire_type := tag &&& 7
    if Unknown number ∧ wire_type ≠ 0 ∧ wire_type ≠ 2 then none
    else (read_varint payload).map fun (value, payload) =>
      if HasLength number wire_type then
        ({ number, wire_type, value, content := payload.take value }, payload.drop value)
      else ({ number, wire_type, value, content := [] }, payload)

/-- The payload is read as these items, to its end. -/
inductive Reads : Bytes → List Item → Prop
  | nil : Reads [] []
  | cons {payload rest : Bytes} {item : Item} {items : List Item}
      (hitem : read_item payload = some (item, rest)) (hrest : Reads rest items) :
      Reads payload (item :: items)

theorem not_read_nil {item : Item} {rest : Bytes} : read_item [] ≠ some (item, rest) := by
  intro h
  cases h

theorem reads_unique {payload : Bytes} {items others : List Item} (h : Reads payload items)
    (h' : Reads payload others) : items = others := by
  induction h generalizing others with
  | nil =>
    cases h' with
    | nil => rfl
    | cons hitem _ => exact absurd hitem not_read_nil
  | cons hitem _ ih =>
    cases h' with
    | nil => exact absurd hitem not_read_nil
    | cons hother hrest =>
      obtain ⟨rfl, rfl⟩ := Prod.mk.inj (Option.some.inj (hitem.symm.trans hother))
      rw [ih hrest]

/-- What the decoder checks of an item. -/
structure Checked (item : Item) : Prop where
  unknown : Unknown item.number → item.wire_type = 0 ∨ item.wire_type = 2
  type : item.number = 6 → item.value = 0

instance (item : Item) : Decidable (Checked item) :=
  decidable_of_iff ((Unknown item.number → item.wire_type = 0 ∨ item.wire_type = 2) ∧
      (item.number = 6 → item.value = 0))
    ⟨fun h => ⟨h.1, h.2⟩, fun h => ⟨h.1, h.2⟩⟩

/-- What makes an item a field of proto3. -/
structure Proper (item : Item) : Prop where
  number_pos : 0 < item.number
  number_le : item.number ≤ wire.MAX_FIELD_NUMBER
  declared : ∀ type ∈ field_types item.number, item.wire_type = type.code
  inside : HasLength item.number item.wire_type → item.content.length = item.value

instance (item : Item) : Decidable (Proper item) :=
  decidable_of_iff (0 < item.number ∧ item.number ≤ wire.MAX_FIELD_NUMBER ∧
      (∀ type ∈ field_types item.number, item.wire_type = type.code) ∧
      (HasLength item.number item.wire_type → item.content.length = item.value))
    ⟨fun h => ⟨h.1, h.2.1, h.2.2.1, h.2.2.2⟩, fun h => ⟨h.1, h.2, h.3, h.4⟩⟩

/-- The effect of an item on the variables of the loop. -/
def take_item (fields : Fields) (item : Item) : Fields :=
  if item.number = 4 then { fields with content := text_decode item.content }
  else if item.number = 1 ∨ item.number = 2 ∨ item.number = 3 ∨ item.number = 5 then
    fields.put item.number item.value
  else fields

theorem known_cases {number : Nat} (h : ¬ Unknown number) :
    number = 1 ∨ number = 2 ∨ number = 3 ∨ number = 4 ∨ number = 5 ∨ number = 6 := by
  unfold Unknown at h
  omega

theorem unknown_ne {number : Nat} (h : Unknown number) :
    number ≠ 1 ∧ number ≠ 2 ∧ number ≠ 3 ∧ number ≠ 4 ∧ number ≠ 5 ∧ number ≠ 6 := by
  unfold Unknown at h
  omega

theorem take_item_unknown {item : Item} (h : Unknown item.number) (fields : Fields) :
    take_item fields item = fields := by
  obtain ⟨h1, h2, h3, h4, h5, -⟩ := unknown_ne h
  unfold take_item
  rw [if_neg h4, if_neg (by tauto)]

/-- A turn of the loop reads an item, and ends the loop with none if it is a type that is not
`CHAT`. -/
theorem decode_field_eq (fields : Fields) (payload : Bytes) :
    decode_field fields payload = (read_item payload).bind fun (item, rest) =>
      if item.number = 6 ∧ item.value ≠ 0 then none else some (take_item fields item, rest) := by
  unfold decode_field read_item
  cases read_varint payload with
  | none => rfl
  | some read =>
    obtain ⟨tag, after⟩ := read
    rw [Option.bind_some, Option.bind_some]
    dsimp only
    generalize tag >>> 3 = number
    generalize tag &&& 7 = wire_type
    by_cases hunknown : Unknown number
    · obtain ⟨h1, h2, h3, h4, h5, h6⟩ := unknown_ne hunknown
      rw [if_neg h1, if_neg h2, if_neg h3, if_neg h4, if_neg h5, if_neg h6]
      unfold skip_unknown_field
      by_cases hvarint : wire_type = 0
      · subst hvarint
        cases read_varint after <;>
          simp [HasLength, h4, h6, take_item_unknown, hunknown]
      · by_cases hdelimited : wire_type = 2
        · subst hdelimited
          cases read_varint after <;>
            simp [HasLength, h6, take_item_unknown, hunknown]
        · simp [hvarint, hdelimited, hunknown]
    · rcases known_cases hunknown with rfl | rfl | rfl | rfl | rfl | rfl <;>
        cases hread : read_varint after <;>
        simp [number_field, HasLength, Unknown, take_item, Fields.put, hread]

theorem read_item_checked {payload rest : Bytes} {item : Item}
    (h : read_item payload = some (item, rest)) (hunknown : Unknown item.number) :
    item.wire_type = 0 ∨ item.wire_type = 2 := by
  unfold read_item at h
  obtain ⟨⟨tag, after⟩, -, h⟩ := Option.bind_eq_some_iff.mp h
  obtain ⟨hknown, h⟩ := Option.ite_none_left_eq_some.mp h
  obtain ⟨⟨value, rest'⟩, -, h⟩ := Option.map_eq_some_iff.mp h
  dsimp only at h hknown
  split at h <;> obtain ⟨rfl, -⟩ := Prod.mk.inj h <;> dsimp only at hunknown ⊢ <;> tauto

/-- A payload that the loop comes through is read as items, which it takes in turn. -/
theorem reads_of_decode {fields final : Fields} {payload : Bytes}
    (h : decode_fields fields payload = some final) :
    ∃ items, Reads payload items ∧ (∀ item ∈ items, Checked item) ∧
      final = items.foldl take_item fields := by
  induction hlength : payload.length using Nat.strongRecOn generalizing fields payload with
  | ind n ih =>
    by_cases hnil : payload = []
    · subst hnil
      rw [decode_fields_nil] at h
      exact ⟨[], .nil, fun item hitem => absurd hitem List.not_mem_nil, (Option.some.inj h).symm⟩
    cases hfield : decode_field fields payload with
    | none =>
      rw [decode_fields, if_neg hnil] at h
      split at h
      · cases h
      · rename_i heq
        rw [hfield] at heq
        cases heq
    | some next =>
      obtain ⟨fields', rest⟩ := next
      rw [decode_fields_of_some hfield] at h
      have hlt := decode_field_shortens _ _ hfield
      obtain ⟨items, hreads, hchecked, hfinal⟩ := ih rest.length (by omega) h rfl
      rw [decode_field_eq] at hfield
      obtain ⟨⟨item, rest'⟩, hitem, hfield⟩ := Option.bind_eq_some_iff.mp hfield
      obtain ⟨htype, hfield⟩ := Option.ite_none_left_eq_some.mp hfield
      obtain ⟨rfl, rfl⟩ := Prod.mk.inj (Option.some.inj hfield)
      refine ⟨item :: items, .cons hitem hreads, ?_, hfinal⟩
      intro other hother
      rcases List.mem_cons.mp hother with rfl | hother
      · exact ⟨read_item_checked hitem, fun hsix => by_contra fun hzero => htype ⟨hsix, hzero⟩⟩
      · exact hchecked other hother

theorem decode_of_reads {payload : Bytes} {items : List Item} (hreads : Reads payload items)
    (hchecked : ∀ item ∈ items, Checked item) (fields : Fields) :
    decode_fields fields payload = some (items.foldl take_item fields) := by
  induction hreads generalizing fields with
  | nil => exact decode_fields_nil fields
  | @cons payload rest item items hitem _ ih =>
    have hfield : decode_field fields payload = some (take_item fields item, rest) := by
      rw [decode_field_eq, hitem, Option.bind_some]
      dsimp only
      rw [if_neg fun htype => htype.2 ((hchecked item List.mem_cons_self).type htype.1)]
    rw [decode_fields_of_some hfield, List.foldl_cons]
    exact ih (fun other hother => hchecked other (List.mem_cons_of_mem _ hother)) _

/-! ## Items and fields -/

/-- The field of proto3 that a proper item is. -/
def Item.field (item : Item) : wire.Field where
  number := item.number
  value :=
    if HasLength item.number item.wire_type then .delimited item.content else .varint item.value

/-- A field has a length if its wire type says so. -/
theorem wire_type_of_proper {item : Item} (hchecked : Checked item) (h : Proper item) :
    item.wire_type = if HasLength item.number item.wire_type then 2 else 0 := by
  by_cases hunknown : Unknown item.number
  · obtain ⟨-, -, -, h4, -, -⟩ := unknown_ne hunknown
    rcases hchecked.unknown hunknown with hzero | htwo
    · rw [hzero, if_neg (by simp [HasLength, h4])]
    · have hlength : HasLength item.number 2 := Or.inr ⟨hunknown, rfl⟩
      rw [htwo, if_pos hlength]
  · have hlength : HasLength item.number item.wire_type ↔ item.number = 4 := by
      simp [HasLength, hunknown]
    have hdeclared := h.declared
    simp only [hlength]
    rcases known_cases hunknown with hn | hn | hn | hn | hn | hn <;> rw [hn] at hdeclared ⊢ <;>
      exact hdeclared _ rfl

theorem read_field_of_item {payload rest : Bytes} {item : Item}
    (hitem : read_item payload = some (item, rest)) (hchecked : Checked item) (h : Proper item) :
    wire.read_field payload = some (item.field, rest) := by
  have htype := wire_type_of_proper hchecked h
  have hnumber := And.intro h.number_pos h.number_le
  have hinside := h.inside
  unfold read_item at hitem
  obtain ⟨⟨tag, after⟩, htag, hitem⟩ := Option.bind_eq_some_iff.mp hitem
  obtain ⟨-, hitem⟩ := Option.ite_none_left_eq_some.mp hitem
  obtain ⟨⟨value, rest'⟩, hvalue, hitem⟩ := Option.map_eq_some_iff.mp hitem
  dsimp only at hitem
  split at hitem
  · rename_i hlength
    obtain ⟨rfl, rfl⟩ := Prod.mk.inj hitem
    refine wire.read_field_eq_some.mpr ⟨tag, after, htag, hnumber, rfl, ?_⟩
    have hle : value ≤ rest'.length := by
      have htake : (rest'.take value).length = value := hinside hlength
      rw [List.length_take] at htake
      omega
    rw [if_pos hlength] at htype
    dsimp only at htype
    unfold Item.field
    dsimp only
    rw [if_pos hlength, htype]
    refine Option.bind_eq_some_iff.mpr ⟨_, hvalue, ?_⟩
    unfold wire.read_bytes
    dsimp only
    rw [if_pos hle, Option.map_some]
  · rename_i hlength
    obtain ⟨rfl, rfl⟩ := Prod.mk.inj hitem
    refine wire.read_field_eq_some.mpr ⟨tag, after, htag, hnumber, rfl, ?_⟩
    rw [if_neg hlength] at htype
    dsimp only at htype
    unfold Item.field
    dsimp only
    rw [if_neg hlength, htype]
    exact Option.map_eq_some_iff.mpr ⟨_, hvalue, rfl⟩

/-- Proper items are the fields that a parser finds. -/
theorem extract_of_reads {payload : Bytes} {items : List Item} (hreads : Reads payload items)
    (hchecked : ∀ item ∈ items, Checked item) (h : ∀ item ∈ items, Proper item) :
    wire.field_splitter.extract payload = (items.map Item.field, []) := by
  induction hreads with
  | nil => exact chunks.extract_of_none chunks.next_nil
  | @cons payload rest item items hitem _ ih =>
    have hfield := read_field_of_item hitem (hchecked item List.mem_cons_self)
      (h item List.mem_cons_self)
    have hsplit : wire.field_splitter.next payload = some (item.field, rest) := hfield
    rw [chunks.extract_of_some hsplit,
      ih (fun other hother => hchecked other (List.mem_cons_of_mem _ hother))
        (fun other hother => h other (List.mem_cons_of_mem _ hother))]
    rfl

theorem plain_field (item : Item) : wire.Plain item.field := by
  unfold wire.Plain Item.field
  dsimp only
  split <;> simp

/-- A field of the item has the declared type. -/
theorem conforms_field {item : Item} (hchecked : Checked item) (h : Proper item) :
    ∀ type ∈ field_types item.field.number, item.field.value.wire_type = type := by
  intro type htype
  have hcode := h.declared type htype
  have hlength := wire_type_of_proper hchecked h
  unfold Item.field
  dsimp only
  rw [hcode] at hlength ⊢
  split at hlength <;> rename_i hlen <;> simp only [hlen, if_true, if_false] <;>
    cases type <;> first | rfl | cases hlength

/-- A payload of proper items is well formed. -/
theorem parse_fields_of_reads {payload : Bytes} {items : List Item} (hreads : Reads payload items)
    (hchecked : ∀ item ∈ items, Checked item) (h : ∀ item ∈ items, Proper item) :
    parse_fields payload = some (items.map Item.field) := by
  have hparse : wire.parse payload = some (items.map Item.field) := by
    apply wire.parse_plain (extract_of_reads hreads hchecked h)
    intro field hfield
    obtain ⟨item, -, rfl⟩ := List.mem_map.mp hfield
    exact plain_field item
  have hconforms : wire.Conforms field_types (items.map Item.field) := by
    intro field hfield
    obtain ⟨item, hitem, rfl⟩ := List.mem_map.mp hfield
    exact conforms_field (hchecked item hitem) (h item hitem)
  unfold parse_fields
  rw [hparse, Option.filter_some, if_pos (decide_eq_true hconforms)]

/-! ## The last value of a field -/

theorem varint_of_field {k : Nat} (hk : ¬ Unknown k) (h4 : k ≠ 4) (item : Item) :
    wire.Field.varint_of k item.field = if item.number = k then some item.value else none := by
  unfold wire.Field.varint_of Item.field
  dsimp only
  by_cases hlength : HasLength item.number item.wire_type
  · have hne : item.number ≠ k := by
      rintro rfl
      rcases hlength with hfour | ⟨hunknown, -⟩
      · exact h4 hfour
      · exact hk hunknown
    rw [if_pos hlength, if_neg hne]
  · rw [if_neg hlength]

theorem bytes_of_field (item : Item) :
    wire.Field.bytes_of 4 item.field = if item.number = 4 then some item.content else none := by
  unfold wire.Field.bytes_of Item.field
  dsimp only
  by_cases hlength : HasLength item.number item.wire_type
  · rw [if_pos hlength]
  · have hne : item.number ≠ 4 := fun hfour => hlength (Or.inl hfour)
    rw [if_neg hlength, if_neg hne]

/-- The variables of the loop hold the last values of the fields so far. -/
structure Follows (now : Nat) (read : List wire.Field) (fields : Fields) : Prop where
  msg_id : fields.msg_id = (wire.last (wire.Field.varint_of 1) read).elim "" toString
  sender_id : fields.sender_id = (wire.last (wire.Field.varint_of 2) read).elim "" toString
  recipient_id : fields.recipient_id = (wire.last (wire.Field.varint_of 3) read).elim "" toString
  content : fields.content = text_decode ((wire.last (wire.Field.bytes_of 4) read).getD [])
  timestamp_ms : fields.timestamp_ms =
    (wire.last (wire.Field.varint_of 5) read).elim now to_number

section TakeItem

variable (fields : Fields) (item : Item)

theorem take_item_msg_id : (take_item fields item).msg_id =
    if item.number = 1 then toString item.value else fields.msg_id := by
  unfold take_item Fields.put
  split_ifs <;> first | rfl | omega

theorem take_item_sender_id : (take_item fields item).sender_id =
    if item.number = 2 then toString item.value else fields.sender_id := by
  unfold take_item Fields.put
  split_ifs <;> first | rfl | omega

theorem take_item_recipient_id : (take_item fields item).recipient_id =
    if item.number = 3 then toString item.value else fields.recipient_id := by
  unfold take_item Fields.put
  split_ifs <;> first | rfl | omega

theorem take_item_content : (take_item fields item).content =
    if item.number = 4 then text_decode item.content else fields.content := by
  unfold take_item Fields.put
  split_ifs <;> rfl

theorem take_item_timestamp_ms : (take_item fields item).timestamp_ms =
    if item.number = 5 then to_number item.value else fields.timestamp_ms := by
  unfold take_item Fields.put
  split_ifs <;> first | rfl | omega

end TakeItem

theorem last_varint_append {k : Nat} (hk : ¬ Unknown k) (h4 : k ≠ 4) (read : List wire.Field)
    (item : Item) :
    wire.last (wire.Field.varint_of k) (read ++ [item.field]) =
      if item.number = k then some item.value else wire.last (wire.Field.varint_of k) read := by
  rw [wire.last_append_one, varint_of_field hk h4]
  split <;> rfl

theorem last_bytes_append (read : List wire.Field) (item : Item) :
    wire.last (wire.Field.bytes_of 4) (read ++ [item.field]) =
      if item.number = 4 then some item.content else wire.last (wire.Field.bytes_of 4) read := by
  rw [wire.last_append_one, bytes_of_field]
  split <;> rfl

theorem follows_item {now : Nat} {read : List wire.Field} {fields : Fields}
    (h : Follows now read fields) (item : Item) :
    Follows now (read ++ [item.field]) (take_item fields item) := by
  constructor
  case msg_id =>
    rw [take_item_msg_id, last_varint_append (by decide) (by decide), h.msg_id]
    split <;> rfl
  case sender_id =>
    rw [take_item_sender_id, last_varint_append (by decide) (by decide), h.sender_id]
    split <;> rfl
  case recipient_id =>
    rw [take_item_recipient_id, last_varint_append (by decide) (by decide), h.recipient_id]
    split <;> rfl
  case content =>
    rw [take_item_content, last_bytes_append, h.content]
    split <;> rfl
  case timestamp_ms =>
    rw [take_item_timestamp_ms, last_varint_append (by decide) (by decide), h.timestamp_ms]
    split <;> rfl

theorem follows_items {now : Nat} {read : List wire.Field} {fields : Fields} (items : List Item)
    (h : Follows now read fields) :
    Follows now (read ++ items.map Item.field) (items.foldl take_item fields) := by
  induction items generalizing read fields with
  | nil => simpa using h
  | cons item items ih => simpa using ih (follows_item h item)

/-! ## What the record says -/

/-- The record has the values of the fields. Without an id it has one of its own, and without
a time the time of the call. A negative time is left out. -/
structure Agrees (now : Nat) (fields : List wire.Field) (record : ChatRecord) : Prop where
  id : record.id =
    if (wire.last (wire.Field.varint_of 1) fields).isSome then toString (message_of fields).msg_id
    else "proto-" ++ number_text record.timestamp_ms ++ "-" ++ record.sender_id ++ "-" ++
      record.recipient_id
  sender_id : record.sender_id = toString (message_of fields).sender_id
  recipient_id : record.recipient_id = toString (message_of fields).recipient_id
  content : record.content = text_decode (message_of fields).content
  timestamp_ms : (wire.last (wire.Field.varint_of 5) fields).isSome →
    0 ≤ (message_of fields).timestamp_ms →
    record.timestamp_ms = to_number (message_of fields).timestamp_ms.toNat
  no_timestamp : (wire.last (wire.Field.varint_of 5) fields).isNone → record.timestamp_ms = now
  msg_type : (message_of fields).msg_type = 0

/-- The last value is the one of an item. -/
theorem item_of_last {k value : Nat} (hk : ¬ Unknown k) (h4 : k ≠ 4) {items : List Item}
    (h : wire.last (wire.Field.varint_of k) (items.map Item.field) = some value) :
    ∃ item ∈ items, item.number = k ∧ item.value = value := by
  obtain ⟨field, hfield, hvalue⟩ := List.exists_of_findSome?_eq_some h
  obtain ⟨item, hitem, rfl⟩ := List.mem_map.mp (List.mem_reverse.mp hfield)
  rw [varint_of_field hk h4] at hvalue
  obtain ⟨hnumber, hvalue⟩ := Option.ite_none_right_eq_some.mp hvalue
  exact ⟨item, hitem, hnumber, Option.some.inj hvalue⟩

/-- The record that the decoder makes of the variables. -/
structure MadeOf (fields : Fields) (record : ChatRecord) : Prop where
  sender_there : fields.sender_id ≠ ""
  recipient_there : fields.recipient_id ≠ ""
  id : record.id =
    if fields.msg_id = "" then "proto-" ++ number_text fields.timestamp_ms ++ "-" ++
      fields.sender_id ++ "-" ++ fields.recipient_id
    else fields.msg_id
  sender_id : record.sender_id = fields.sender_id
  recipient_id : record.recipient_id = fields.recipient_id
  content : record.content = fields.content
  timestamp_ms : record.timestamp_ms = fields.timestamp_ms

theorem made_of_decode {payload : Bytes} {direction : ChatMessageDirection} {now : Nat}
    {record : ChatRecord} (h : decode_chat_message payload direction now = some record) :
    ∃ fields, decode_fields { timestamp_ms := now } payload = some fields ∧
      MadeOf fields record := by
  obtain ⟨fields, hdecode, hrecord⟩ := Option.bind_eq_some_iff.mp h
  obtain ⟨hids, hrecord⟩ := Option.ite_none_left_eq_some.mp hrecord
  obtain ⟨hsender, hrecipient⟩ := not_or.mp hids
  obtain rfl := Option.some.inj hrecord
  exact ⟨fields, hdecode, hsender, hrecipient, rfl, rfl, rfl, rfl, rfl⟩

section Values

variable {items : List Item} (hvalues : ∀ item ∈ items, item.value < 2 ^ 64)
include hvalues

theorem last_lt {k value : Nat} (hk : ¬ Unknown k) (h4 : k ≠ 4)
    (h : wire.last (wire.Field.varint_of k) (items.map Item.field) = some value) :
    value < 2 ^ 64 := by
  obtain ⟨item, hitem, -, rfl⟩ := item_of_last hk h4 h
  exact hvalues item hitem

/-- An id that is there is the one of the parser. -/
theorem id_text_eq {k : Nat} (hk : ¬ Unknown k) (h4 : k ≠ 4) {last : Option Nat}
    (hlast : wire.last (wire.Field.varint_of k) (items.map Item.field) = last) {id : String}
    (hne : id ≠ "") (h : id = last.elim "" toString) :
    last.isSome ∧ id = toString (wire.uint64 (last.getD 0)) := by
  cases last with
  | none => exact absurd h hne
  | some value =>
    rw [Option.getD_some, wire.uint64_of_lt (last_lt hvalues hk h4 hlast)]
    exact ⟨rfl, h⟩

/-- The id of the message, or one that is made of the other fields. -/
theorem id_of_follows {now : Nat} {fields : Fields} {record : ChatRecord}
    (h : Follows now (items.map Item.field) fields) (hrecord : MadeOf fields record) :
    record.id =
      if (wire.last (wire.Field.varint_of 1) (items.map Item.field)).isSome then
        toString (message_of (items.map Item.field)).msg_id
      else "proto-" ++ number_text record.timestamp_ms ++ "-" ++ record.sender_id ++ "-" ++
        record.recipient_id := by
  rw [hrecord.id, hrecord.timestamp_ms, hrecord.sender_id, hrecord.recipient_id]
  by_cases hempty : fields.msg_id = ""
  · have hnone : wire.last (wire.Field.varint_of 1) (items.map Item.field) = none := by
      cases hlast : wire.last (wire.Field.varint_of 1) (items.map Item.field) with
      | none => rfl
      | some value =>
        rw [h.msg_id, hlast] at hempty
        exact absurd hempty (loomic.json.toString_ne_empty value)
    rw [if_pos hempty, hnone, if_neg (by decide)]
  · obtain ⟨hthere, hid⟩ := id_text_eq hvalues (by decide) (by decide) rfl hempty h.msg_id
    rw [if_neg hempty, if_pos hthere]
    exact hid

/-- A time that is there and is not negative. -/
theorem time_of_follows {now : Nat} {fields : Fields}
    (h : Follows now (items.map Item.field) fields)
    (hthere : (wire.last (wire.Field.varint_of 5) (items.map Item.field)).isSome)
    (hnonneg : 0 ≤ (message_of (items.map Item.field)).timestamp_ms) :
    fields.timestamp_ms = to_number (message_of (items.map Item.field)).timestamp_ms.toNat := by
  obtain ⟨value, hlast⟩ := Option.isSome_iff_exists.mp hthere
  have hvalue : (message_of (items.map Item.field)).timestamp_ms = wire.int64 value := by
    unfold message_of
    rw [hlast, Option.getD_some]
  rw [hvalue] at hnonneg ⊢
  rw [wire.int64_of_nonneg (last_lt hvalues (by decide) (by decide) hlast) hnonneg,
    h.timestamp_ms, hlast]
  rfl

omit hvalues in
/-- The last type is zero, as all of them are. -/
theorem type_of_checked (hchecked : ∀ item ∈ items, Checked item) :
    (message_of (items.map Item.field)).msg_type = 0 := by
  unfold message_of
  dsimp only
  cases hlast : wire.last (wire.Field.varint_of 6) (items.map Item.field) with
  | none => rfl
  | some value =>
    obtain ⟨item, hitem, hnumber, rfl⟩ := item_of_last (by decide) (by decide) hlast
    rw [(hchecked item hitem).type hnumber]
    rfl

theorem agrees_of_follows {now : Nat} {fields : Fields} {record : ChatRecord}
    (hchecked : ∀ item ∈ items, Checked item) (h : Follows now (items.map Item.field) fields)
    (hrecord : MadeOf fields record) : Agrees now (items.map Item.field) record := by
  obtain ⟨-, hsender⟩ :=
    id_text_eq hvalues (by decide) (by decide) rfl hrecord.sender_there h.sender_id
  obtain ⟨-, hrecipient⟩ :=
    id_text_eq hvalues (by decide) (by decide) rfl hrecord.recipient_there h.recipient_id
  constructor
  case id => exact id_of_follows hvalues h hrecord
  case sender_id => exact hrecord.sender_id.trans hsender
  case recipient_id => exact hrecord.recipient_id.trans hrecipient
  case content => exact hrecord.content.trans h.content
  case timestamp_ms =>
    intro hthere hnonneg
    exact hrecord.timestamp_ms.trans (time_of_follows hvalues h hthere hnonneg)
  case no_timestamp =>
    intro hnone
    rw [hrecord.timestamp_ms, h.timestamp_ms, Option.isNone_iff_eq_none.mp hnone]
    rfl
  case msg_type => exact type_of_checked hchecked

end Values

/-- A record is made of items that the decoder checked. Where all of them are fields of proto3,
the payload is well formed, and where they have 64 bits, the record has its values. -/
theorem a_record_has_the_values_of_its_fields {payload : Bytes} {direction : ChatMessageDirection}
    {now : Nat} {record : ChatRecord}
    (h : decode_chat_message payload direction now = some record) :
    ∃ items, Reads payload items ∧ (∀ item ∈ items, Checked item) ∧
      ((∀ item ∈ items, Proper item) → ∃ fields, parse_fields payload = some fields ∧
        ((∀ item ∈ items, item.value < 2 ^ 64) → Agrees now fields record)) := by
  obtain ⟨final, hdecode, hrecord⟩ := made_of_decode h
  obtain ⟨items, hreads, hchecked, rfl⟩ := reads_of_decode hdecode
  have hstart : Follows now [] { timestamp_ms := now } := ⟨rfl, rfl, rfl, rfl, rfl⟩
  have hfollows := follows_items items hstart
  exact ⟨items, hreads, hchecked, fun hproper => ⟨items.map Item.field,
    parse_fields_of_reads hreads hchecked hproper,
    fun hvalues => agrees_of_follows hvalues hchecked hfollows hrecord⟩⟩

section Examples

/-- An item that is no length. -/
def number_item (number wire_type value : Nat) : Item where
  number := number
  wire_type := wire_type
  value := value
  content := []

/-- The record of a message from 2 to 3 at the time 4. -/
def record_with (id content : String) : ChatRecord where
  id := id
  sender_id := "2"
  recipient_id := "3"
  content := content
  timestamp_ms := 4
  direction := .incoming

def hello : Bytes := [0x08, 1, 0x10, 2, 0x18, 3, 0x28, 4, 0x22, 2, 0x68, 0x69]

theorem reads_hello :
    Reads hello
      [number_item 1 0 1, number_item 2 0 2, number_item 3 0 3, number_item 5 0 4,
        { number := 4, wire_type := 2, value := 2, content := [0x68, 0x69] }] :=
  .cons rfl (.cons rfl (.cons rfl (.cons rfl (.cons rfl .nil))))

theorem decode_hello : decode_chat_message hello .incoming 7 = some (record_with "1" "hi") := by
  unfold decode_chat_message
  rw [decode_of_reads reads_hello (by decide)]
  decide

theorem hello_has_its_values :
    ∃ fields, parse_fields hello = some fields ∧ Agrees 7 fields (record_with "1" "hi") := by
  obtain ⟨items, hreads, -, h⟩ := a_record_has_the_values_of_its_fields decode_hello
  obtain rfl := reads_unique hreads reads_hello
  obtain ⟨fields, hparse, hagrees⟩ := h (by decide)
  exact ⟨fields, hparse, hagrees (by decide)⟩

section Refuted

variable {payload : Bytes} {items : List Item} {record : ChatRecord}

theorem not_sound_of_rest (h : decode_chat_message payload .incoming 7 = some record)
    (hrest : (wire.field_splitter.extract payload).2 ≠ []) : ¬ Sound payload .incoming 7 := by
  intro hsound
  obtain ⟨message, hmessage, -⟩ := hsound record h
  unfold parse_chat_message parse_fields at hmessage
  rw [wire.parse_of_rest hrest] at hmessage
  cases hmessage

/-- The payload is well formed, but the record has another id or another time. -/
theorem not_sound_of_values (hreads : Reads payload items)
    (h : decode_chat_message payload .incoming 7 = some record)
    (hchecked : ∀ item ∈ items, Checked item) (hproper : ∀ item ∈ items, Proper item)
    (hvalues : record.id ≠ toString (message_of (items.map Item.field)).msg_id ∨
      (record.timestamp_ms : Int) ≠ (message_of (items.map Item.field)).timestamp_ms) :
    ¬ Sound payload .incoming 7 := by
  intro hsound
  obtain ⟨message, hmessage, hid, -, -, -, htime⟩ := hsound record h
  unfold parse_chat_message at hmessage
  rw [parse_fields_of_reads hreads hchecked hproper] at hmessage
  obtain rfl := Option.some.inj hmessage
  exact hvalues.elim (· hid) (· htime)

end Refuted

def without_id : Bytes := [0x10, 2, 0x18, 3, 0x28, 4]

theorem reads_without_id :
    Reads without_id [number_item 2 0 2, number_item 3 0 3, number_item 5 0 4] :=
  .cons rfl (.cons rfl (.cons rfl .nil))

theorem decode_without_id :
    decode_chat_message without_id .incoming 7 = some (record_with "proto-4-2-3" "") := by
  unfold decode_chat_message
  rw [decode_of_reads reads_without_id (by decide)]
  decide

def without_time : Bytes := [0x08, 1, 0x10, 2, 0x18, 3]

theorem reads_without_time :
    Reads without_time [number_item 1 0 1, number_item 2 0 2, number_item 3 0 3] :=
  .cons rfl (.cons rfl (.cons rfl .nil))

theorem decode_without_time :
    decode_chat_message without_time .incoming 7 =
      some { record_with "1" "" with timestamp_ms := 7 } := by
  unfold decode_chat_message
  rw [decode_of_reads reads_without_time (by decide)]
  decide

/-- The id is 2^64. -/
def wide_id : Bytes :=
  [0x08, 0x80, 0x80, 0x80, 0x80, 0x80, 0x80, 0x80, 0x80, 0x80, 2, 0x10, 2, 0x18, 3, 0x28, 4]

theorem reads_wide_id :
    Reads wide_id
      [number_item 1 0 (2 ^ 64), number_item 2 0 2, number_item 3 0 3, number_item 5 0 4] :=
  .cons rfl (.cons rfl (.cons rfl (.cons rfl .nil)))

theorem decode_wide_id :
    decode_chat_message wide_id .incoming 7 = some (record_with "18446744073709551616" "") := by
  unfold decode_chat_message
  rw [decode_of_reads reads_wide_id (by decide)]
  decide

/-- The content has five bytes, of which two are there. -/
def cut_content : Bytes := [0x08, 1, 0x10, 2, 0x18, 3, 0x28, 4, 0x22, 5, 0x68, 0x69]

theorem reads_cut_content :
    Reads cut_content
      [number_item 1 0 1, number_item 2 0 2, number_item 3 0 3, number_item 5 0 4,
        { number := 4, wire_type := 2, value := 5, content := [0x68, 0x69] }] :=
  .cons rfl (.cons rfl (.cons rfl (.cons rfl (.cons rfl .nil))))

theorem decode_cut_content :
    decode_chat_message cut_content .incoming 7 = some (record_with "1" "hi") := by
  unfold decode_chat_message
  rw [decode_of_reads reads_cut_content (by decide)]
  decide

theorem rest_cut_content : (wire.field_splitter.extract cut_content).2 ≠ [] := by
  have hid : wire.field_splitter.next cut_content =
      some (⟨1, .varint 1⟩, [0x10, 2, 0x18, 3, 0x28, 4, 0x22, 5, 0x68, 0x69]) := rfl
  have hsender : wire.field_splitter.next [0x10, 2, 0x18, 3, 0x28, 4, 0x22, 5, 0x68, 0x69] =
      some (⟨2, .varint 2⟩, [0x18, 3, 0x28, 4, 0x22, 5, 0x68, 0x69]) := rfl
  have hrecipient : wire.field_splitter.next [0x18, 3, 0x28, 4, 0x22, 5, 0x68, 0x69] =
      some (⟨3, .varint 3⟩, [0x28, 4, 0x22, 5, 0x68, 0x69]) := rfl
  have htime : wire.field_splitter.next [0x28, 4, 0x22, 5, 0x68, 0x69] =
      some (⟨5, .varint 4⟩, [0x22, 5, 0x68, 0x69]) := rfl
  have hcontent : wire.field_splitter.next [0x22, 5, 0x68, 0x69] = none := rfl
  rw [chunks.extract_of_some hid, chunks.extract_of_some hsender,
    chunks.extract_of_some hrecipient, chunks.extract_of_some htime,
    chunks.extract_of_none hcontent]
  decide

/-- The id has the wire type of four bytes. -/
def fixed_id : Bytes := [0x0D, 1, 0x10, 2, 0x18, 3, 0x28, 4]

theorem reads_fixed_id :
    Reads fixed_id
      [number_item 1 5 1, number_item 2 0 2, number_item 3 0 3, number_item 5 0 4] :=
  .cons rfl (.cons rfl (.cons rfl (.cons rfl .nil)))

theorem decode_fixed_id :
    decode_chat_message fixed_id .incoming 7 = some (record_with "1" "") := by
  unfold decode_chat_message
  rw [decode_of_reads reads_fixed_id (by decide)]
  decide

theorem rest_fixed_id : (wire.field_splitter.extract fixed_id).2 ≠ [] := by
  have hid : wire.field_splitter.next fixed_id =
      some (⟨1, .fixed32 [1, 0x10, 2, 0x18]⟩, [3, 0x28, 4]) := rfl
  have hzero : wire.field_splitter.next [3, 0x28, 4] = none := rfl
  rw [chunks.extract_of_some hid, chunks.extract_of_none hzero]
  decide

/-- A message without an id gets one of its own, and without a time it gets the time of the
call. An id of more than 64 bits, a content that is cut and a field of another wire type are
taken as they come. -/
theorem records_differ_from_the_fields :
    ¬ Sound without_id .incoming 7 ∧ ¬ Sound without_time .incoming 7 ∧
      ¬ Sound wide_id .incoming 7 ∧ ¬ Sound cut_content .incoming 7 ∧
      ¬ Sound fixed_id .incoming 7 :=
  ⟨not_sound_of_values reads_without_id decode_without_id (by decide) (by decide)
      (.inl (by decide)),
    not_sound_of_values reads_without_time decode_without_time (by decide) (by decide)
      (.inr (by decide)),
    not_sound_of_values reads_wide_id decode_wide_id (by decide) (by decide) (.inl (by decide)),
    not_sound_of_rest decode_cut_content rest_cut_content,
    not_sound_of_rest decode_fixed_id rest_fixed_id⟩

end Examples

end loomic.proto_fields
