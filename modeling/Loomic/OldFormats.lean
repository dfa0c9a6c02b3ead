-- Entries of the offline queue that older servers wrote: frames with a protobuf
-- payload (build_chat_frame), and the format LMS1 that had no flags yet. A
-- frame has no magic word, so its first bytes, which are a length, must not
-- read as one.
import Loomic.ChatFrames

open little_endian loomic.chat_frames loomic.delivery_format loomic.frame

namespace loomic.old_formats

/-! ## The format LMS1 -/

/-- The layout of `serialize_delivery`, with the old magic word and without the flags. -/
def serialize_v1 (message : OutboundMessage) : Bytes :=
  kDeliveryMagicV1 ++ (bytesOf 8 message.conv_id.toNat ++ (bytesOf 8 message.msg_id.toNat ++
    (bytesOf 8 message.sender_id.toNat ++ (bytesOf 8 message.recipient_id.toNat ++
      (bytesOf 8 message.timestamp_ms.toUInt64.toNat ++ (bytesOf 1 message.msg_type.byte.toNat ++
        (bytesOf 4 (UInt32.ofNat message.content.length).toNat ++ message.content)))))))

/-- The number in the length field. -/
def payload_len_v1 (payload : Bytes) : Nat := numberOf ((payload.drop 45).take 4)

variable {message : OutboundMessage}

/-- After the old magic word, the fields are read without flags. -/
theorem deserialize_v1 (parse : ParseFromArray) (data : Bytes) :
    deserialize_delivery parse (kDeliveryMagicV1 ++ data) = read_fields false data := by
  have hlong : ¬ (kDeliveryMagicV1 ++ data).length < kDeliveryMagic.length := by
    rw [List.length_append]
    exact Nat.not_lt.mpr (Nat.le_add_right 4 data.length)
  have htake : (kDeliveryMagicV1 ++ data).take 4 = kDeliveryMagicV1 := rfl
  unfold deserialize_delivery
  rw [if_neg hlong, htake, if_neg (by decide), if_pos rfl]
  rfl

theorem deserialize_serialize_v1 (parse : ParseFromArray) (h : message.content.length < 2 ^ 32) :
    deserialize_delivery parse (serialize_v1 message) = some { message with flags := 0 } := by
  have hlen : (UInt32.ofNat message.content.length).toNat = message.content.length := by
    rw [UInt32.toNat_ofNat']
    omega
  unfold serialize_v1
  rw [deserialize_v1]
  simp only [read_fields, read_uint64, read_uint8, read_uint32, Option.bind_some,
    Bool.false_eq_true, if_false, UInt64.ofNat_toNat, UInt8.ofNat_toNat, Int64.toInt64_toUInt64]
  rw [hlen, if_neg fun hne => hne rfl]
  rfl

/-- What is read without flags is as long as its length field says. -/
theorem length_of_read {data : Bytes} (h : read_fields false data = some message) :
    data.length = 45 + numberOf ((data.drop 41).take 4) := by
  obtain ⟨hlt, rfl⟩ := fields_of_read h
  have hbytes : ((fields [] message).drop 41).take 4 =
      bytesOf 4 (UInt32.ofNat message.content.length).toNat := rfl
  have hfield : numberOf (bytesOf 4 (UInt32.ofNat message.content.length).toNat) =
      message.content.length := by
    rw [UInt32.toNat_ofNat', numberOf_bytesOf _ _ (by omega)]
    omega
  have hlength : (fields [] message).length = 45 + message.content.length := by
    simp only [fields, List.length_append, length_bytesOf, List.length_nil]
    omega
  rw [if_neg Bool.false_ne_true, hbytes, hfield, hlength]

/-- Nothing with the old magic word is accepted whose length disagrees with its length field. -/
theorem wrong_length_is_rejected (parse : ParseFromArray) {payload : Bytes}
    (hmagic : kDeliveryMagicV1 <+: payload) (hlen : payload.length ≠ 49 + payload_len_v1 payload) :
    deserialize_delivery parse payload = none := by
  obtain ⟨data, rfl⟩ := hmagic
  rw [deserialize_v1, Option.eq_none_iff_forall_ne_some]
  intro message h
  have hread := length_of_read h
  have hfield : payload_len_v1 (kDeliveryMagicV1 ++ data) = numberOf ((data.drop 41).take 4) := rfl
  have hmagic : kDeliveryMagicV1.length = 4 := rfl
  rw [hfield, List.length_append] at hlen
  omega

/-! ## Frames -/

/-- The parser gives back what the encoder wrote of the message. -/
def Inverts (parse : ParseFromArray) (proto : Proto) (message : OutboundMessage) : Prop :=
  parse (proto message).val = some (message.timestamp_ms, message.content)

/-- A direct message that a session may have queued. -/
structure DirectMessage (message : OutboundMessage) : Prop where
  flags : message.flags = 0
  conv_id : message.conv_id = min message.sender_id message.recipient_id
  length_content : message.content.length ≤ 2 ^ 20

variable {proto : Proto}

/-- A magic word would be a length of eight hundred million or more. -/
theorem length_ne_magic {n : Nat} (h : n < 2 ^ 29) :
    bytesOf 4 n ≠ kDeliveryMagic ∧ bytesOf 4 n ≠ kDeliveryMagicV1 := by
  have hfield : numberOf (bytesOf 4 n) = n := numberOf_bytesOf _ _ (by omega)
  constructor
  · intro hmagic
    rw [hmagic] at hfield
    have hvalue : numberOf kDeliveryMagic = 0x32534D4C := rfl
    omega
  · intro hmagic
    rw [hmagic] at hfield
    have hvalue : numberOf kDeliveryMagicV1 = 0x31534D4C := rfl
    omega

theorem length_proto_lt (hproto : Standard proto) (h : message.content.length ≤ 2 ^ 20) :
    (proto message).val.length < 2 ^ 29 := by
  have hle := length_chat_message_le h
  rw [hproto message (length_chat_message h)]
  omega

/-- A frame starts with the length of its payload. -/
theorem take_frame (hlen : (proto message).val.length < 2 ^ 29) :
    (build_chat_frame proto message).bytes.take 4 = bytesOf 4 (proto message).val.length := by
  have hfield : (UInt32.ofNat (proto message).val.length).toNat = (proto message).val.length := by
    rw [UInt32.toNat_ofNat']
    omega
  have htake : (build_chat_frame proto message).bytes.take 4 =
      bytesOf 4 (UInt32.ofNat (proto message).val.length).toNat := rfl
  rw [htake, hfield]

/-- No frame reads as one of the formats with a magic word. -/
theorem frame_has_no_magic (hlen : (proto message).val.length < 2 ^ 29) :
    ¬ kDeliveryMagic <+: (build_chat_frame proto message).bytes ∧
      ¬ kDeliveryMagicV1 <+: (build_chat_frame proto message).bytes := by
  obtain ⟨hne, hne'⟩ := length_ne_magic hlen
  constructor
  · intro hmagic
    have htake := List.prefix_iff_eq_take.mp hmagic
    exact hne (take_frame hlen ▸ htake.symm)
  · intro hmagic
    have htake := List.prefix_iff_eq_take.mp hmagic
    exact hne' (take_frame hlen ▸ htake.symm)

theorem deserialize_frame {parse : ParseFromArray} (hparse : Inverts parse proto message)
    (hlen : (proto message).val.length < 2 ^ 29) :
    deserialize_delivery parse (build_chat_frame proto message).bytes =
      some { message with
        conv_id := min message.sender_id message.recipient_id
        flags := 0 } := by
  obtain ⟨hne, hne'⟩ := length_ne_magic hlen
  have hbytes := length_frame_bytes (build_chat_frame proto message)
  have hhdr : FrameHeader.ofBytes (build_chat_frame proto message).bytes =
      (build_chat_frame proto message).hdr := ofBytes_header_bytes _ _
  have hdrop : (build_chat_frame proto message).bytes.drop 30 = (proto message).val := rfl
  have hmagic : kDeliveryMagic.length = 4 := rfl
  unfold deserialize_delivery
  rw [if_neg (by omega), take_frame hlen, if_neg hne, if_neg hne']
  unfold deserialize_legacy_frame
  dsimp only
  rw [if_neg (by omega), hhdr, if_neg (not_not.mpr hbytes), hdrop, hparse]
  rfl

/-! ## The law -/

/-- Each of the three layouts is read as what it is. -/
theorem the_old_formats_stay_readable {proto : Proto} (hproto : Standard proto)
    (parse : ParseFromArray) :
    (∀ message, DirectMessage message → Inverts parse proto message →
      deserialize_delivery parse (build_chat_frame proto message).bytes = some message) ∧
    (∀ message : OutboundMessage, message.content.length ≤ 2 ^ 20 →
      deserialize_delivery parse (serialize_v1 message) = some { message with flags := 0 } ∧
      deserialize_delivery parse (serialize_delivery message) = some message ∧
      ¬ kDeliveryMagic <+: (build_chat_frame proto message).bytes ∧
      ¬ kDeliveryMagicV1 <+: (build_chat_frame proto message).bytes) ∧
    ∀ payload, kDeliveryMagicV1 <+: payload → payload.length ≠ 49 + payload_len_v1 payload →
      deserialize_delivery parse payload = none := by
  refine ⟨?_, ?_, fun payload => wrong_length_is_rejected parse⟩
  · intro message h hparse
    have hlen := length_proto_lt hproto h.length_content
    rw [deserialize_frame hparse hlen, ← h.conv_id, ← h.flags]
  · intro message h
    exact ⟨deserialize_serialize_v1 parse (by omega), deserialize_serialize parse (by omega),
      frame_has_no_magic (length_proto_lt hproto h)⟩

/-! ## An old greeting -/

def old_greeting : OutboundMessage := { greeting with conv_id := 2 }

/-- The parser, on the one payload that it gets here. -/
def parse_greeting : ParseFromArray := fun payload =>
  if payload = chat_message_bytes old_greeting then some (4, [0x68, 0x69]) else none

theorem inverts_greeting : Inverts parse_greeting proto3 old_greeting := by
  unfold Inverts parse_greeting
  rw [standard_proto3 old_greeting (length_chat_message (by decide)), if_pos rfl]
  rfl

theorem an_old_greeting_is_readable :
    deserialize_delivery parse_greeting (build_chat_frame proto3 old_greeting).bytes =
        some old_greeting ∧
      deserialize_delivery parse_greeting (serialize_v1 old_greeting) = some old_greeting ∧
      deserialize_delivery parse_greeting kDeliveryMagicV1 = none :=
  ⟨(the_old_formats_stay_readable standard_proto3 parse_greeting).1 old_greeting
      ⟨rfl, rfl, by decide⟩ inverts_greeting,
    ((the_old_formats_stay_readable standard_proto3 parse_greeting).2.1 old_greeting
      (by decide)).1,
    (the_old_formats_stay_readable standard_proto3 parse_greeting).2.2 kDeliveryMagicV1
      (List.prefix_refl _) (by decide)⟩

end loomic.old_formats
