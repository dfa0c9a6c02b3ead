-- The gateway's own encoder of chat.proto: encodeChatMessageProto writes every field of a
-- message, zeros too. decodeChatMessage reads them back.
import Loomic.BigInts
import Loomic.TextDecoding

open loomic.big_ints loomic.chat_frames loomic.frame loomic.json loomic.text_decoding

namespace loomic.proto_messages

/-! ## Varints at an offset -/

/-- The lowest seven bits of a negative number are those of its two's complement. The loop goes
on above zero only, so it is one byte. -/
def encode_varint (value : Int) : Bytes :=
  let byte := (value % 128).toNat
  let remaining := value >>> (7 : Nat)
  if 0 < remaining then UInt8.ofNat (byte ||| 0x80) :: encode_varint remaining
  else [UInt8.ofNat byte]
termination_by value.toNat
decreasing_by
  have hshift : value >>> (7 : Nat) = value / 128 := Int.shiftRight_eq_div_pow value 7
  have : 0 < value >>> (7 : Nat) := by assumption
  omega

structure VarintResult where
  value : Nat
  next_offset : Nat
  deriving DecidableEq

/-- The loop of `readVarint`, which has `count` turns left. -/
def read_varint_loop (bytes : Bytes) : (count offset shift value : Nat) → Option VarintResult
  | 0, _, _, _ => none
  | count + 1, offset, shift, value =>
    bytes[offset]?.bind fun byte =>
      let value := value ||| (byte.toNat &&& 0x7f) <<< shift
      if byte.toNat &&& 0x80 = 0 then some { value := value, next_offset := offset + 1 }
      else read_varint_loop bytes count (offset + 1) (shift + 7) value

/-- `readVarint`, with the offset of the source in place of the bytes that are left. -/
def read_varint_at (bytes : Bytes) (start_offset : Nat) : Option VarintResult :=
  read_varint_loop bytes MAX_PROTOBUF_VARINT_BYTES start_offset 0 0

theorem encode_varint_eq (n : Nat) : encode_varint n = varint.encode n := by
  induction n using Nat.strongRecOn with
  | ind n ih =>
    have hshift : (n : Int) >>> (7 : Nat) = (n / 128 : Nat) := by
      rw [Int.shiftRight_eq_div_pow]
      rfl
    have hbyte : ((n : Int) % 128).toNat = n % 128 := by omega
    rw [encode_varint, varint.encode, hshift, hbyte]
    split
    · have hor : n % 128 ||| 0x80 = n % 128 + 128 := by
        rw [Nat.or_comm, Nat.add_comm]
        exact (Nat.two_pow_add_eq_or_of_lt (i := 7) (Nat.mod_lt n (by decide)) 1).symm
      rw [if_neg (by omega), hor, ih (n / 128) (by omega)]
    · rw [if_pos (by omega), Nat.mod_eq_of_lt (by omega)]

/-- A varint at an offset is the one at the start of the bytes from there on. -/
theorem read_varint_loop_eq (bytes : Bytes) (count offset shift value : Nat) :
    read_varint_loop bytes count offset shift value =
      (varint.read count shift value (bytes.drop offset)).map fun (value, rest) =>
        { value := value, next_offset := bytes.length - rest.length } := by
  induction count generalizing offset shift value with
  | zero => rfl
  | succ count ih =>
    unfold read_varint_loop
    rcases Nat.lt_or_ge offset bytes.length with hlt | hge
    · rw [List.getElem?_eq_getElem hlt, List.drop_eq_getElem_cons hlt, Option.bind_some]
      unfold varint.read
      dsimp only
      split
      · rw [Option.map_some, List.length_drop]
        congr 2
        omega
      · exact ih (offset + 1) (shift + 7) _
    · rw [List.getElem?_eq_none hge, List.drop_eq_nil_of_le hge]
      rfl

theorem read_varint_at_eq (bytes : Bytes) (offset : Nat) :
    read_varint_at bytes offset = (read_varint (bytes.drop offset)).map fun (value, rest) =>
      { value := value, next_offset := bytes.length - rest.length } :=
  read_varint_loop_eq bytes MAX_PROTOBUF_VARINT_BYTES offset 0 0

/-- What is written is read back, whatever there is before and after it. -/
theorem read_varint_at_encode {n : Nat} (h : n < 2 ^ 64) (before after : Bytes) :
    read_varint_at (before ++ (encode_varint n ++ after)) before.length =
      some { value := n, next_offset := before.length + (encode_varint n).length } := by
  rw [read_varint_at_eq, List.drop_left, encode_varint_eq, read_varint_encode h, Option.map_some]
  rw [List.length_append, List.length_append]
  dsimp only
  congr 2
  omega

/-! ## Messages -/

/-- The largest length of a string of JavaScript. -/
def MAX_STRING_LENGTH : Nat := 2 ^ 53 - 1

/-- The argument of `encodeChatMessageProto`. The time is an integer: of another number `BigInt`
makes a `RangeError`. -/
structure ProtoMessage where
  id : String
  sender_id : String
  recipient_id : String
  content : String
  timestamp_ms : Int
  length_content : content.length ≤ MAX_STRING_LENGTH

def push_field (field_number wire_type : Nat) : Bytes :=
  encode_varint ((field_number <<< 3 ||| wire_type : Nat) : Int)

/-- `none` when `BigInt` throws. -/
def encode_chat_message_proto (message : ProtoMessage) : Option Bytes :=
  (big_int message.id).bind fun id =>
    (big_int message.sender_id).bind fun sender_id =>
      (big_int message.recipient_id).map fun recipient_id =>
        let content_bytes := bytes message.content
        push_field 1 0 ++ (encode_varint id ++ (push_field 2 0 ++ (encode_varint sender_id ++
          (push_field 3 0 ++ (encode_varint recipient_id ++ (push_field 4 2 ++
            (encode_varint content_bytes.length ++ (content_bytes ++ (push_field 5 0 ++
              (encode_varint message.timestamp_ms ++ (push_field 6 0 ++ encode_varint 0)))))))))))

/-- The text of a number of 64 bits, as `toString` writes it. -/
def CanonicalId (id : String) : Prop := ∃ n < 2 ^ 64, id = toString n

structure Canonical (message : ProtoMessage) : Prop where
  id : CanonicalId message.id
  sender_id : CanonicalId message.sender_id
  recipient_id : CanonicalId message.recipient_id
  timestamp_nonneg : 0 ≤ message.timestamp_ms
  timestamp_lt : message.timestamp_ms < 2 ^ 53
  no_mark : message.content.toList.head? ≠ some BYTE_ORDER_MARK

/-- The record with the fields of the message. -/
def ProtoMessage.record (message : ProtoMessage) (direction : ChatMessageDirection) :
    ChatRecord where
  id := message.id
  sender_id := message.sender_id
  recipient_id := message.recipient_id
  content := message.content
  timestamp_ms := message.timestamp_ms.toNat
  direction := direction

/-- A tag of one byte. -/
theorem push_field_eq {field_number wire_type : Nat}
    (h : field_number * 8 + wire_type < 128) (hwire : wire_type < 8) :
    push_field field_number wire_type = [UInt8.ofNat (field_number * 8 + wire_type)] := by
  have htag : field_number <<< 3 ||| wire_type = field_number * 8 + wire_type := by
    rw [Nat.shiftLeft_eq, Nat.mul_comm]
    exact (Nat.two_pow_add_eq_or_of_lt (i := 3) hwire field_number).symm
  unfold push_field
  rw [htag, encode_varint_eq, varint.encode, if_pos h]

theorem length_bytes_le (s : String) : (bytes s).length ≤ 4 * s.length := by
  rw [bytes_eq_flatMap, ← String.length_toList]
  induction s.toList with
  | nil => simp
  | cons c cs ih =>
    have hchar : (String.utf8EncodeChar c).length ≤ 4 := by
      rw [String.length_utf8EncodeChar]
      exact Char.utf8Size_le_four c
    rw [List.flatMap_cons, List.length_append, List.length_cons]
    omega

/-- The type is `CHAT`, which is zero. -/
theorem decode_type (fields : Fields) (rest : Bytes) :
    decode_fields fields (UInt8.ofNat (6 * 8) :: (varint.encode 0 ++ rest)) =
      decode_fields fields rest := by
  apply decode_fields_of_some
  unfold decode_field
  rw [read_tag (by omega)]
  simp [read_varint_encode (show 0 < 2 ^ 64 by decide)]

theorem encode_numbers {message : ProtoMessage} {id sender_id recipient_id timestamp_ms : Nat}
    (hid : message.id = toString id) (hsender : message.sender_id = toString sender_id)
    (hrecipient : message.recipient_id = toString recipient_id)
    (htime : message.timestamp_ms = timestamp_ms) :
    encode_chat_message_proto message = some
      (UInt8.ofNat (1 * 8) :: (varint.encode id ++
        UInt8.ofNat (2 * 8) :: (varint.encode sender_id ++
          UInt8.ofNat (3 * 8) :: (varint.encode recipient_id ++
            UInt8.ofNat (4 * 8 + 2) :: (varint.encode (bytes message.content).length ++
              (bytes message.content ++
                UInt8.ofNat (5 * 8) :: (varint.encode timestamp_ms ++
                  UInt8.ofNat (6 * 8) :: (varint.encode 0 ++ [])))))))) := by
  have hzero : encode_varint 0 = varint.encode 0 := encode_varint_eq 0
  unfold encode_chat_message_proto
  rw [hid, hsender, hrecipient, htime, big_int_toString, big_int_toString, big_int_toString]
  simp (disch := decide) only [Option.bind_some, Option.map_some, encode_varint_eq, hzero,
    push_field_eq, List.singleton_append, List.append_nil, Nat.add_zero]

/-- A message comes back from its bytes. -/
theorem decode_encode_message {message : ProtoMessage} (h : Canonical message)
    (direction : ChatMessageDirection) (now : Nat) :
    (encode_chat_message_proto message).bind (decode_chat_message · direction now) =
      some (message.record direction) := by
  obtain ⟨id, hid, hid'⟩ := h.id
  obtain ⟨sender_id, hsender, hsender'⟩ := h.sender_id
  obtain ⟨recipient_id, hrecipient, hrecipient'⟩ := h.recipient_id
  obtain ⟨timestamp_ms, htime'⟩ := Int.eq_ofNat_of_zero_le h.timestamp_nonneg
  have htime : timestamp_ms < 2 ^ 53 := by
    have hlt := h.timestamp_lt
    omega
  have hlength : (bytes message.content).length < 2 ^ 64 := by
    have hle := length_bytes_le message.content
    have hmax := message.length_content
    unfold MAX_STRING_LENGTH at hmax
    omega
  have hrecord : message.record direction =
      { id := toString id
        sender_id := toString sender_id
        recipient_id := toString recipient_id
        content := message.content
        timestamp_ms := timestamp_ms
        direction := direction } := by
    unfold ProtoMessage.record
    rw [hid', hsender', hrecipient', htime', Int.toNat_natCast]
  rw [encode_numbers hid' hsender' hrecipient' htime', Option.bind_some, hrecord]
  apply decode_of_numbers direction
  rw [decode_number _ (by decide) hid, decode_number _ (by decide) hsender,
    decode_number _ (by decide) hrecipient, decode_content _ _ hlength,
    decode_number _ (by decide) (by omega), decode_type, decode_fields_nil, put_all,
    to_number_eq htime, text_decode_bytes h.no_mark]

/-- Messages and varints are read back as they are written. -/
theorem what_is_encoded_is_decoded :
    (∀ message direction now, Canonical message →
      (encode_chat_message_proto message).bind (decode_chat_message · direction now) =
        some (message.record direction)) ∧
    ∀ n : Nat, n < 2 ^ 64 → ∀ before after,
      read_varint_at (before ++ (encode_varint n ++ after)) before.length =
        some { value := n, next_offset := before.length + (encode_varint n).length } :=
  ⟨fun _ direction now h => decode_encode_message h direction now,
    fun _ h before after => read_varint_at_encode h before after⟩

section Examples

/-- A message with the smallest and the largest id. -/
def salute : ProtoMessage where
  id := "0"
  sender_id := "0"
  recipient_id := "18446744073709551615"
  content := "hé"
  timestamp_ms := 0
  length_content := by decide

theorem canonical_salute : Canonical salute where
  id := ⟨0, by decide, rfl⟩
  sender_id := ⟨0, by decide, rfl⟩
  recipient_id := ⟨18446744073709551615, by decide, rfl⟩
  timestamp_nonneg := by decide
  timestamp_lt := by decide
  no_mark := by decide

theorem a_salute_comes_back :
    (encode_chat_message_proto salute).bind (decode_chat_message · .outgoing 7) =
        some
          { id := "0"
            sender_id := "0"
            recipient_id := "18446744073709551615"
            content := "hé"
            timestamp_ms := 0
            direction := .outgoing } ∧
      read_varint_at ([1] ++ (encode_varint (300 : Nat) ++ [2])) 1 =
        some { value := 300, next_offset := 1 + (encode_varint (300 : Nat)).length } :=
  ⟨what_is_encoded_is_decoded.1 salute .outgoing 7 canonical_salute,
    what_is_encoded_is_decoded.2 300 (by decide) [1] [2]⟩

end Examples

end loomic.proto_messages
