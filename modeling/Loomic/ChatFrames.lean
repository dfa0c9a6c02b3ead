-- A chat message from the sender's bytes to the browser gateway's record:
-- Session::enqueue makes a frame with a protobuf payload of it, and
-- decodeChatMessage reads the payload with a decoder of its own.
import Loomic.ChatProtocol
import Loomic.DeliveryFormat
import Loomic.Json
import Loomic.Lib.Varint

open chunks loomic.chat_protocol loomic.delivery_format loomic.frame
open loomic.json (toString_ne_empty)

namespace loomic.chat_frames

/-! ## What the server writes -/

/-- A field of the wire type 0, which is left out when it has its default. -/
def varint_field (number value : Nat) : Bytes :=
  if value = 0 then [] else UInt8.ofNat (number * 8) :: varint.encode value

/-- A field of the wire type 2. -/
def bytes_field (number : Nat) (value : Bytes) : Bytes :=
  if value = [] then []
  else UInt8.ofNat (number * 8 + 2) :: (varint.encode value.length ++ value)

/-- The `ChatMessage` of chat.proto in the wire format of proto3. The type is `CHAT`, which is
zero, so its field is left out. -/
def chat_message_bytes (message : OutboundMessage) : Bytes :=
  varint_field 1 message.msg_id.toNat ++ (varint_field 2 message.sender_id.toNat ++
    (varint_field 3 message.recipient_id.toNat ++ (bytes_field 4 message.content ++
      varint_field 5 message.timestamp_ms.toUInt64.toNat)))

/-- The generated encoder writes the wire format, wherever it can. -/
def Standard (proto : Proto) : Prop :=
  ∀ message, (chat_message_bytes message).length < 2 ^ 31 →
    (proto message).val = chat_message_bytes message

/-- `Session::enqueue`: the frame that it appends, if it can read the bytes. -/
def enqueue (proto : Proto) (parse : ParseFromArray) (frame : Bytes) : Option Frame :=
  (deserialize_delivery parse frame).map (wire_frame proto)

/-! ## What the client reads -/

/-- The decoder of UTF-8 as browsers have it: the code point so far, the bytes that it still
needs, and the bounds of the next one. -/
structure DecoderState where
  code_point : Nat := 0
  needed : Nat := 0
  lower : UInt8 := 0x80
  upper : UInt8 := 0xBF

def REPLACEMENT_CHARACTER : Char := '\uFFFD'

/-- A byte at the start of a character. -/
def decode_first (byte : UInt8) : List Char × DecoderState :=
  if byte ≤ 0x7F then ([Char.ofNat byte.toNat], {})
  else if 0xC2 ≤ byte ∧ byte ≤ 0xDF then
    ([], { code_point := byte.toNat &&& 0x1F, needed := 1 })
  else if 0xE0 ≤ byte ∧ byte ≤ 0xEF then
    ([], { code_point := byte.toNat &&& 0xF
           needed := 2
           lower := if byte = 0xE0 then 0xA0 else 0x80
           upper := if byte = 0xED then 0x9F else 0xBF })
  else if 0xF0 ≤ byte ∧ byte ≤ 0xF4 then
    ([], { code_point := byte.toNat &&& 0x7
           needed := 3
           lower := if byte = 0xF0 then 0x90 else 0x80
           upper := if byte = 0xF4 then 0x8F else 0xBF })
  else ([REPLACEMENT_CHARACTER], {})

/-- A byte that cannot continue a character replaces it, and starts the next one. -/
def decode_next (state : DecoderState) (byte : UInt8) : List Char × DecoderState :=
  if state.needed = 0 then decode_first byte
  else if byte < state.lower ∨ state.upper < byte then
    let (chars, state) := decode_first byte
    (REPLACEMENT_CHARACTER :: chars, state)
  else
    let code_point := state.code_point <<< 6 ||| (byte.toNat &&& 0x3F)
    if state.needed = 1 then ([Char.ofNat code_point], {})
    else ([], { code_point := code_point, needed := state.needed - 1 })

def decode_bytes (state : DecoderState) : Bytes → List Char
  | [] => if state.needed = 0 then [] else [REPLACEMENT_CHARACTER]
  | byte :: bytes =>
    (decode_next state byte).1 ++ decode_bytes (decode_next state byte).2 bytes

/-- `TextDecoder.decode`. A byte order mark is dropped. -/
def text_decode (bytes : Bytes) : String :=
  String.ofList (decode_bytes {}
    (if bytes.take 3 = [0xEF, 0xBB, 0xBF] then bytes.drop 3 else bytes))

/-- `Number` of a `bigint`: the nearest number of 53 bits, the even one of two. -/
def to_number (n : Nat) : Nat :=
  let dropped := n.log2 - 52
  let kept := n >>> dropped
  let rest := n % 2 ^ dropped
  if dropped = 0 then n
  else if 2 ^ dropped < 2 * rest ∨ 2 * rest = 2 ^ dropped ∧ kept % 2 = 1 then
    (kept + 1) <<< dropped
  else kept <<< dropped

def MAX_PROTOBUF_VARINT_BYTES : Nat := 10

/-- The value, and the bytes after it. `none` when it throws. -/
def read_varint (bytes : Bytes) : Option (Nat × Bytes) :=
  varint.read MAX_PROTOBUF_VARINT_BYTES 0 0 bytes

def skip_unknown_field (wire_type : Nat) (bytes : Bytes) : Option Bytes :=
  if wire_type = 0 then (read_varint bytes).map (·.2)
  else if wire_type = 2 then (read_varint bytes).map fun (length, rest) => rest.drop length
  else none

inductive ChatMessageDirection
  | incoming
  | outgoing
  deriving DecidableEq

structure ChatRecord where
  id : String
  sender_id : String
  recipient_id : String
  content : String
  timestamp_ms : Nat
  direction : ChatMessageDirection
  deriving DecidableEq

/-- The variables of the loop of `decodeChatMessage`. -/
structure Fields where
  msg_id : String := ""
  sender_id : String := ""
  recipient_id : String := ""
  content : String := ""
  timestamp_ms : Nat

/-- A field that is one number. -/
def number_field (payload : Bytes) (set : Nat → Fields) : Option (Fields × Bytes) :=
  (read_varint payload).map fun (value, payload) => (set value, payload)

/-- One turn of the loop: the variables, and the payload after the field. `none` when it throws,
and when the type is not `CHAT`. -/
def decode_field (fields : Fields) (payload : Bytes) : Option (Fields × Bytes) :=
  (read_varint payload).bind fun (tag, payload) =>
    let field_number := tag >>> 3
    let wire_type := tag &&& 7
    if field_number = 1 then
      number_field payload fun value => { fields with msg_id := toString value }
    else if field_number = 2 then
      number_field payload fun value => { fields with sender_id := toString value }
    else if field_number = 3 then
      number_field payload fun value => { fields with recipient_id := toString value }
    else if field_number = 4 then (read_varint payload).map fun (length, payload) =>
      ({ fields with content := text_decode (payload.take length) }, payload.drop length)
    else if field_number = 5 then
      number_field payload fun value => { fields with timestamp_ms := to_number value }
    else if field_number = 6 then (read_varint payload).bind fun (value, payload) =>
      if value ≠ 0 then none else some (fields, payload)
    else (skip_unknown_field wire_type payload).map fun payload => (fields, payload)

/-- What is left of the payload is shorter. -/
def Shortens (payload : Bytes) (decoded : Option (Fields × Bytes)) : Prop :=
  ∀ fields rest, decoded = some (fields, rest) → rest.length < payload.length

section Shortens

variable {payload : Bytes} {fields : Fields}

theorem shortens_ite {c : Prop} [Decidable c] {a b : Option (Fields × Bytes)}
    (ha : Shortens payload a) (hb : Shortens payload b) :
    Shortens payload (if c then a else b) := by
  split
  · exact ha
  · exact hb

theorem number_field_shortens {set : Nat → Fields} :
    Shortens payload (number_field payload set) := by
  intro fields rest h
  obtain ⟨⟨value, rest'⟩, hread, hfields⟩ := Option.map_eq_some_iff.mp h
  obtain ⟨rfl, rfl⟩ := Prod.mk.inj hfields
  exact varint.read_shortens hread

theorem content_shortens : Shortens payload ((read_varint payload).map fun (length, payload) =>
    ({ fields with content := text_decode (payload.take length) }, payload.drop length)) := by
  intro fields rest h
  obtain ⟨⟨length, rest'⟩, hread, hfields⟩ := Option.map_eq_some_iff.mp h
  obtain ⟨rfl, rfl⟩ := Prod.mk.inj hfields
  have hlt := varint.read_shortens hread
  rw [List.length_drop]
  omega

theorem type_shortens : Shortens payload ((read_varint payload).bind fun (value, payload) =>
    if value ≠ 0 then none else some (fields, payload)) := by
  intro fields rest h
  obtain ⟨⟨value, rest'⟩, hread, hvalue⟩ := Option.bind_eq_some_iff.mp h
  obtain ⟨_, hsome⟩ := Option.ite_none_left_eq_some.mp hvalue
  obtain ⟨rfl, rfl⟩ := Prod.mk.inj (Option.some.inj hsome)
  exact varint.read_shortens hread

theorem unknown_shortens {wire_type : Nat} : Shortens payload
    ((skip_unknown_field wire_type payload).map fun payload => (fields, payload)) := by
  intro fields rest h
  obtain ⟨rest', hskip, hfields⟩ := Option.map_eq_some_iff.mp h
  obtain ⟨rfl, rfl⟩ := Prod.mk.inj hfields
  unfold skip_unknown_field at hskip
  split_ifs at hskip
  · obtain ⟨⟨n, rest''⟩, hread, rfl⟩ := Option.map_eq_some_iff.mp hskip
    exact varint.read_shortens hread
  · obtain ⟨⟨n, rest''⟩, hread, rfl⟩ := Option.map_eq_some_iff.mp hskip
    have hlt := varint.read_shortens hread
    rw [List.length_drop]
    omega

/-- Every field takes bytes, so the loop ends. -/
theorem decode_field_shortens : Shortens payload (decode_field fields payload) := by
  intro fields' rest h
  unfold decode_field at h
  obtain ⟨⟨tag, after⟩, htag, h⟩ := Option.bind_eq_some_iff.mp h
  apply Nat.lt_trans _ (varint.read_shortens htag)
  refine shortens_ite number_field_shortens ?_ fields' rest h
  apply shortens_ite number_field_shortens
  apply shortens_ite number_field_shortens
  apply shortens_ite content_shortens
  apply shortens_ite number_field_shortens
  exact shortens_ite type_shortens unknown_shortens

end Shortens

def decode_fields (fields : Fields) (payload : Bytes) : Option Fields :=
  if payload = [] then some fields
  else
    match _h : decode_field fields payload with
    | none => none
    | some (fields, rest) => decode_fields fields rest
termination_by payload.length
decreasing_by exact decode_field_shortens _ _ (by assumption)

/-- The fewest digits, and the zeros behind them, that are read as the number, the nearest of two.
A tie goes to the even one. -/
def shortest_digits (n zeros : Nat) : Option Nat :=
  let low := n / 10 ^ zeros
  let high := low + 1
  let rest := n % 10 ^ zeros
  if to_number (low * 10 ^ zeros) = n ∧ ¬ (to_number (high * 10 ^ zeros) = n ∧
      (10 ^ zeros < 2 * rest ∨ 2 * rest = 10 ^ zeros ∧ low % 2 = 1)) then some low
  else if to_number (high * 10 ^ zeros) = n then some high
  else none

/-- `toString` of a number that is an integer: digits up to 10^21, and an exponent above. -/
def number_text (n : Nat) : String :=
  if n < 2 ^ 53 then toString n
  else
    let (digits, zeros) := ((List.range 22).reverse.findSome? fun zeros =>
      (shortest_digits n zeros).map fun digits => (toString digits, zeros)).getD (toString n, 0)
    if n < 10 ^ 21 then digits ++ String.ofList (List.replicate zeros '0')
    else (digits.take 1).toString ++ (if digits.length = 1 then "" else ".") ++
      (digits.drop 1).toString ++ "e+" ++ toString (digits.length - 1 + zeros)

def decode_chat_message (payload : Bytes) (direction : ChatMessageDirection) (now : Nat) :
    Option ChatRecord :=
  (decode_fields { timestamp_ms := now } payload).bind fun fields =>
    if fields.sender_id = "" ∨ fields.recipient_id = "" then none
    else some
      { id :=
          if fields.msg_id = "" then "proto-" ++ number_text fields.timestamp_ms ++ "-" ++
            fields.sender_id ++ "-" ++ fields.recipient_id
          else fields.msg_id
        sender_id := fields.sender_id
        recipient_id := fields.recipient_id
        content := fields.content
        timestamp_ms := fields.timestamp_ms
        direction := direction }

/-! ## Field by field -/

theorem read_varint_encode {n : Nat} (h : n < 2 ^ 64) (rest : Bytes) :
    read_varint (varint.encode n ++ rest) = some (n, rest) := by
  unfold read_varint MAX_PROTOBUF_VARINT_BYTES
  rw [varint.read_encode (by omega), Nat.zero_or, Nat.shiftLeft_zero]

theorem read_tag {tag : Nat} (h : tag < 128) (rest : Bytes) :
    read_varint (UInt8.ofNat tag :: rest) = some (tag, rest) := by
  unfold read_varint MAX_PROTOBUF_VARINT_BYTES
  rw [varint.read_last h, Nat.zero_or, Nat.shiftLeft_zero]

theorem decode_fields_nil (fields : Fields) : decode_fields fields [] = some fields := by
  rw [decode_fields, if_pos rfl]

theorem decode_fields_of_some {fields fields' : Fields} {payload rest : Bytes}
    (h : decode_field fields payload = some (fields', rest)) :
    decode_fields fields payload = decode_fields fields' rest := by
  have hne : payload ≠ [] := by
    rintro rfl
    exact absurd (decode_field_shortens _ _ h) (Nat.not_lt_zero _)
  rw [decode_fields, if_neg hne]
  split
  · rename_i heq
    rw [h] at heq
    cases heq
  · rename_i heq
    rw [h] at heq
    obtain ⟨rfl, rfl⟩ := Prod.mk.inj (Option.some.inj heq)
    rfl

/-- How a number of the message comes to the variables of the loop. -/
def Fields.put (fields : Fields) (number value : Nat) : Fields :=
  if number = 1 then { fields with msg_id := toString value }
  else if number = 2 then { fields with sender_id := toString value }
  else if number = 3 then { fields with recipient_id := toString value }
  else { fields with timestamp_ms := to_number value }

/-- The variables at the end, when every field was there. -/
theorem put_all (now msg_id sender_id recipient_id timestamp_ms : Nat) (content : String) :
    ({ (((({ timestamp_ms := now } : Fields).put 1 msg_id).put 2 sender_id).put 3 recipient_id) with
        content := content } : Fields).put 5 timestamp_ms =
      { msg_id := toString msg_id
        sender_id := toString sender_id
        recipient_id := toString recipient_id
        content := content
        timestamp_ms := to_number timestamp_ms } := rfl

/-- The texts of ids are not empty, so there is a record when the loop found them. -/
theorem decode_of_numbers {payload : Bytes} {now msg_id sender_id recipient_id timestamp_ms : Nat}
    {content : String} (direction : ChatMessageDirection)
    (h : decode_fields { timestamp_ms := now } payload = some
      { msg_id := toString msg_id
        sender_id := toString sender_id
        recipient_id := toString recipient_id
        content := content
        timestamp_ms := timestamp_ms }) :
    decode_chat_message payload direction now = some
      { id := toString msg_id
        sender_id := toString sender_id
        recipient_id := toString recipient_id
        content := content
        timestamp_ms := timestamp_ms
        direction := direction } := by
  unfold decode_chat_message
  rw [h, Option.bind_some]
  dsimp only
  rw [if_neg (not_or.mpr ⟨toString_ne_empty _, toString_ne_empty _⟩),
    if_neg (toString_ne_empty _)]

theorem decode_number (fields : Fields) {number value : Nat}
    (hnumber : number = 1 ∨ number = 2 ∨ number = 3 ∨ number = 5) (h : value < 2 ^ 64)
    (rest : Bytes) :
    decode_fields fields (UInt8.ofNat (number * 8) :: (varint.encode value ++ rest)) =
      decode_fields (fields.put number value) rest := by
  apply decode_fields_of_some
  unfold decode_field number_field Fields.put
  rw [read_tag (by omega)]
  rcases hnumber with rfl | rfl | rfl | rfl <;>
    simp [read_varint_encode h]

theorem decode_content (fields : Fields) (content : Bytes) (h : content.length < 2 ^ 64)
    (rest : Bytes) :
    decode_fields fields
        (UInt8.ofNat (4 * 8 + 2) :: (varint.encode content.length ++ (content ++ rest))) =
      decode_fields { fields with content := text_decode content } rest := by
  apply decode_fields_of_some
  unfold decode_field
  rw [read_tag (by omega)]
  simp [read_varint_encode h]

theorem decode_varint_field (fields : Fields) {number value : Nat}
    (hnumber : number = 1 ∨ number = 2 ∨ number = 3 ∨ number = 5) (hpos : value ≠ 0)
    (h : value < 2 ^ 64) (rest : Bytes) :
    decode_fields fields (varint_field number value ++ rest) =
      decode_fields (fields.put number value) rest := by
  unfold varint_field
  rw [if_neg hpos, List.cons_append]
  exact decode_number fields hnumber h rest

theorem decode_bytes_field (fields : Fields) (content : Bytes) (h : content.length < 2 ^ 64)
    (hempty : fields.content = "") (rest : Bytes) :
    decode_fields fields (bytes_field 4 content ++ rest) =
      decode_fields { fields with content := text_decode content } rest := by
  unfold bytes_field
  split
  · rename_i hnil
    subst hnil
    have hdecode : text_decode [] = fields.content := by
      rw [hempty]
      rfl
    rw [hdecode]
    rfl
  · rw [List.cons_append, List.append_assoc]
    exact decode_content fields content h rest

/-! ## The whole way -/

/-- The record that the client should have of a message. -/
def record_of (message : OutboundMessage) (direction : ChatMessageDirection) : ChatRecord where
  id := toString message.msg_id.toNat
  sender_id := toString message.sender_id.toNat
  recipient_id := toString message.recipient_id.toNat
  content := text_decode message.content
  timestamp_ms := message.timestamp_ms.toInt.toNat
  direction := direction

/-- A message of the kind that the server makes of what users write. -/
structure ChatMessage (message : OutboundMessage) : Prop where
  msg_type : message.msg_type = .CHAT
  msg_id : message.msg_id ≠ 0
  sender_id : message.sender_id ≠ 0
  recipient_id : message.recipient_id ≠ 0
  timestamp_pos : 0 < message.timestamp_ms
  timestamp_lt : message.timestamp_ms.toInt < 2 ^ 53
  length_content : message.content.length ≤ 2 ^ 20

theorem toNat_ne_zero {id : UInt64} (h : id ≠ 0) : id.toNat ≠ 0 := by
  intro hzero
  exact h (UInt64.toNat_inj.mp hzero)

/-- Numbers of 53 bits are exact. -/
theorem to_number_eq {n : Nat} (h : n < 2 ^ 53) : to_number n = n := by
  have hlog : n.log2 - 52 = 0 := by
    rcases Nat.eq_zero_or_pos n with rfl | hpos
    · rfl
    · have hlt := (Nat.log2_lt (by omega)).mpr h
      omega
  unfold to_number
  rw [hlog]
  rfl

/-- A positive time is the same number with and without a sign. -/
theorem timestamp_toNat {t : Int64} (h : 0 < t) :
    t.toUInt64.toNat = t.toInt.toNat ∧ t.toUInt64.toNat ≠ 0 := by
  have hpos : 0 < t.toInt := Int64.lt_iff_toInt_lt.mp h
  have hint : t.toInt = t.toBitVec.toInt := rfl
  have hnat : t.toUInt64.toNat = t.toBitVec.toNat := rfl
  have hlt := t.toBitVec.isLt
  rw [BitVec.toInt_eq_toNat_cond] at hint
  split at hint <;> omega

theorem length_varint_field (number : Nat) (x : UInt64) :
    (varint_field number x.toNat).length ≤ 11 := by
  unfold varint_field
  split
  · simp
  · have hlt := x.toNat_lt
    have hle := varint.length_encode (show x.toNat < 128 ^ (9 + 1) by omega)
    rw [List.length_cons]
    omega

theorem length_chat_message_le {message : OutboundMessage}
    (h : message.content.length ≤ 2 ^ 20) : (chat_message_bytes message).length ≤ 2 ^ 20 + 55 := by
  have hcontent : (bytes_field 4 message.content).length ≤ 2 ^ 20 + 11 := by
    unfold bytes_field
    split
    · simp
    · have hle := varint.length_encode (show message.content.length < 128 ^ (9 + 1) by omega)
      rw [List.length_cons, List.length_append]
      omega
  have h1 := length_varint_field 1 message.msg_id
  have h2 := length_varint_field 2 message.sender_id
  have h3 := length_varint_field 3 message.recipient_id
  have h5 := length_varint_field 5 message.timestamp_ms.toUInt64
  unfold chat_message_bytes
  simp only [List.length_append]
  omega

theorem length_chat_message {message : OutboundMessage} (h : message.content.length ≤ 2 ^ 20) :
    (chat_message_bytes message).length < 2 ^ 31 := by
  have hle := length_chat_message_le h
  omega

theorem decode_chat_message_bytes {message : OutboundMessage} (h : ChatMessage message)
    (direction : ChatMessageDirection) (now : Nat) :
    decode_chat_message (chat_message_bytes message) direction now =
      some (record_of message direction) := by
  obtain ⟨htime, hpos⟩ := timestamp_toNat h.timestamp_pos
  have hnumber : to_number message.timestamp_ms.toInt.toNat = message.timestamp_ms.toInt.toNat := by
    have hlt := h.timestamp_lt
    exact to_number_eq (by omega)
  have hcontent := h.length_content
  apply decode_of_numbers direction
  unfold chat_message_bytes
  rw [decode_varint_field _ (by decide) (toNat_ne_zero h.msg_id) message.msg_id.toNat_lt,
    decode_varint_field _ (by decide) (toNat_ne_zero h.sender_id) message.sender_id.toNat_lt,
    decode_varint_field _ (by decide) (toNat_ne_zero h.recipient_id) message.recipient_id.toNat_lt,
    decode_bytes_field _ _ (by omega) rfl,
    ← List.append_nil (varint_field 5 _),
    decode_varint_field _ (by decide) hpos message.timestamp_ms.toUInt64.toNat_lt,
    decode_fields_nil, htime]
  rw [put_all, hnumber]

/-- A frame on its own is extracted as a whole. -/
theorem extract_frame (f : Frame) : extract_frames f.bytes = ([parsed f], []) := by
  have hnext := next_frame_bytes f []
  rw [List.append_nil, ← frame_splitter_next] at hnext
  unfold extract_frames
  rw [extract_of_some hnext, extract_of_none next_nil]

theorem parsed_chat_frame (proto : Proto) (message : OutboundMessage) :
    (parsed (build_chat_frame proto message)).msg_type = message.msg_type.byte ∧
      (parsed (build_chat_frame proto message)).payload = (proto message).val := ⟨rfl, rfl⟩

/-- A chat message that is pushed through the sender is one frame for the client, with the
message in it. -/
theorem the_client_reads_what_the_server_wrote {proto : Proto} (hproto : Standard proto)
    (parse : ParseFromArray) {message : OutboundMessage} (h : ChatMessage message)
    (direction : ChatMessageDirection) (now : Nat) :
    ∃ frame received, enqueue proto parse (serialize_delivery message) = some frame ∧
      extract_frames frame.bytes = ([received], []) ∧ received.msg_type = MsgType.CHAT.byte ∧
      decode_chat_message received.payload direction now = some (record_of message direction) := by
  have hlen := h.length_content
  have hframe : wire_frame proto message = build_chat_frame proto message := by
    unfold wire_frame
    rw [h.msg_type, if_neg (by decide)]
  obtain ⟨htype, hpayload⟩ := parsed_chat_frame proto message
  refine ⟨build_chat_frame proto message, parsed (build_chat_frame proto message), ?_,
    extract_frame _, ?_, ?_⟩
  · unfold enqueue
    rw [deserialize_serialize parse (by omega), Option.map_some, hframe]
  · rw [htype, h.msg_type]
  · rw [hpayload, hproto message (length_chat_message hlen)]
    exact decode_chat_message_bytes h direction now

/-! ## A greeting -/

section Examples

def proto3 : Proto := fun message =>
  if h : (chat_message_bytes message).length < 2 ^ 31 then ⟨chat_message_bytes message, h⟩
  else ⟨[], by decide⟩

theorem standard_proto3 : Standard proto3 := by
  intro message h
  unfold proto3
  rw [dif_pos h]

def greeting : OutboundMessage where
  msg_id := 300
  sender_id := 2
  recipient_id := 3
  timestamp_ms := 4
  content := [0x68, 0x69]

theorem a_greeting_arrives :
    ∃ frame received, enqueue proto3 (fun _ => none) (serialize_delivery greeting) = some frame ∧
      extract_frames frame.bytes = ([received], []) ∧ received.msg_type = MsgType.CHAT.byte ∧
      decode_chat_message received.payload .incoming 0 = some (record_of greeting .incoming) :=
  the_client_reads_what_the_server_wrote standard_proto3 (fun _ => none)
    ⟨rfl, by decide, by decide, by decide, by decide, by decide, by decide⟩ .incoming 0

end Examples

end loomic.chat_frames
