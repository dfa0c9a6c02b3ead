-- The bytes of a message between two sessions, and in the offline queue
-- (serialize_delivery and deserialize_delivery of frame.cpp): a magic word,
-- the fields in a fixed width, then the content.
import Loomic.Frame

open little_endian loomic.frame

namespace loomic.delivery_format

/-- The letters LMS2, and LMS1 of the format that had no flags yet. -/
def kDeliveryMagic : Bytes := [0x4C, 0x4D, 0x53, 0x32]

def kDeliveryMagicV1 : Bytes := [0x4C, 0x4D, 0x53, 0x31]

def serialize_delivery (message : OutboundMessage) : Bytes :=
  kDeliveryMagic ++ (bytesOf 8 message.conv_id.toNat ++ (bytesOf 8 message.msg_id.toNat ++
    (bytesOf 8 message.sender_id.toNat ++ (bytesOf 8 message.recipient_id.toNat ++
      (bytesOf 8 message.timestamp_ms.toUInt64.toNat ++ (bytesOf 1 message.msg_type.byte.toNat ++
        (bytesOf 1 message.flags.toNat ++
          (bytesOf 4 (UInt32.ofNat message.content.length).toNat ++ message.content))))))))

/-- The next field, and what comes after it. -/
def read_pod (width : Nat) (data : Bytes) : Option (Nat × Bytes) :=
  if data.length < width then none
  else some (numberOf (data.take width), data.drop width)

/-- What follows the magic word. The old format has no flags. -/
def read_fields (has_flags : Bool) (data : Bytes) : Option OutboundMessage :=
  (read_pod 8 data).bind fun (conv_id, data) =>
  (read_pod 8 data).bind fun (msg_id, data) =>
  (read_pod 8 data).bind fun (sender_id, data) =>
  (read_pod 8 data).bind fun (recipient_id, data) =>
  (read_pod 8 data).bind fun (timestamp_ms, data) =>
  (read_pod 1 data).bind fun (msg_type, data) =>
  (if has_flags then read_pod 1 data else some (0, data)).bind fun (flags, data) =>
  (read_pod 4 data).bind fun (payload_len, data) =>
    if data.length ≠ payload_len then none
    else some
      { conv_id := UInt64.ofNat conv_id
        msg_id := UInt64.ofNat msg_id
        sender_id := UInt64.ofNat sender_id
        recipient_id := UInt64.ofNat recipient_id
        timestamp_ms := (UInt64.ofNat timestamp_ms).toInt64
        msg_type := ⟨UInt8.ofNat msg_type⟩
        flags := UInt8.ofNat flags
        content := data }

/-- The protobuf parser gives the time and the content of a `ChatMessage`. -/
abbrev ParseFromArray := Bytes → Option (Int64 × Bytes)

/-- The oldest entries of the offline queue are frames. -/
def deserialize_legacy_frame (parse : ParseFromArray) (payload : Bytes) : Option OutboundMessage :=
  let header := FrameHeader.ofBytes payload
  if payload.length < 30 then none
  else if payload.length ≠ 30 + header.payload_len.toNat then none
  else (parse (payload.drop 30)).map fun (timestamp_ms, content) =>
    { conv_id := min header.sender_id header.recipient_id
      msg_id := header.msg_id
      sender_id := header.sender_id
      recipient_id := header.recipient_id
      timestamp_ms := timestamp_ms
      msg_type := header.type
      content := content }

def deserialize_delivery (parse : ParseFromArray) (payload : Bytes) : Option OutboundMessage :=
  if payload.length < kDeliveryMagic.length then deserialize_legacy_frame parse payload
  else if payload.take 4 = kDeliveryMagic then read_fields true (payload.drop 4)
  else if payload.take 4 = kDeliveryMagicV1 then read_fields false (payload.drop 4)
  else deserialize_legacy_frame parse payload

/-! ## The round trip -/

theorem read_pod_append {width n : Nat} (h : n < 256 ^ width) (rest : Bytes) :
    read_pod width (bytesOf width n ++ rest) = some (n, rest) := by
  unfold read_pod
  rw [if_neg]
  · rw [List.take_append_of_le_length (by simp), List.take_of_length_le (by simp),
      List.drop_append_of_le_length (by simp), List.drop_of_length_le (by simp),
      numberOf_bytesOf _ _ h, List.nil_append]
  · rw [List.length_append, length_bytesOf]
    omega

theorem read_uint64 (x : UInt64) (rest : Bytes) :
    read_pod 8 (bytesOf 8 x.toNat ++ rest) = some (x.toNat, rest) := by
  apply read_pod_append
  have := x.toNat_lt
  omega

theorem read_uint8 (x : UInt8) (rest : Bytes) :
    read_pod 1 (bytesOf 1 x.toNat ++ rest) = some (x.toNat, rest) := by
  apply read_pod_append
  have := x.toNat_lt
  omega

theorem read_uint32 (x : UInt32) (rest : Bytes) :
    read_pod 4 (bytesOf 4 x.toNat ++ rest) = some (x.toNat, rest) := by
  apply read_pod_append
  have := x.toNat_lt
  omega

/-- A message whose length fits the field comes back as it was. -/
theorem deserialize_serialize (parse : ParseFromArray) {message : OutboundMessage}
    (h : message.content.length < 2 ^ 32) :
    deserialize_delivery parse (serialize_delivery message) = some message := by
  have hlen : (UInt32.ofNat message.content.length).toNat = message.content.length := by
    rw [UInt32.toNat_ofNat']
    omega
  have hmagic : ∀ rest : Bytes, ¬ (kDeliveryMagic ++ rest).length < kDeliveryMagic.length ∧
      (kDeliveryMagic ++ rest).take 4 = kDeliveryMagic ∧
      (kDeliveryMagic ++ rest).drop 4 = rest := by
    intro rest
    refine ⟨?_, rfl, rfl⟩
    rw [List.length_append]
    omega
  unfold deserialize_delivery serialize_delivery
  rw [if_neg (hmagic _).1, if_pos (hmagic _).2.1, (hmagic _).2.2]
  simp only [read_fields, read_uint64, read_uint8, read_uint32, Option.bind_some, if_true,
    UInt64.ofNat_toNat, UInt8.ofNat_toNat, Int64.toInt64_toUInt64]
  rw [hlen, if_neg fun hne => hne rfl]

/-! ## What is accepted -/

theorem read_pod_eq_some {width n : Nat} {data rest : Bytes}
    (h : read_pod width data = some (n, rest)) :
    n < 256 ^ width ∧ data = bytesOf width n ++ rest := by
  unfold read_pod at h
  split at h
  · cases h
  · rename_i hlen
    obtain ⟨rfl, rfl⟩ := Prod.mk.inj (Option.some.inj h)
    have hwidth : (data.take width).length = width := by
      rw [List.length_take]
      omega
    have hlt := numberOf_lt (data.take width)
    have hbytes := bytesOf_numberOf (data.take width)
    rw [hwidth] at hlt hbytes
    refine ⟨hlt, ?_⟩
    rw [hbytes, List.take_append_drop]

theorem toNat_uint64 {n : Nat} (h : n < 256 ^ 8) : (UInt64.ofNat n).toNat = n := by
  rw [UInt64.toNat_ofNat']
  omega

theorem toNat_uint8 {n : Nat} (h : n < 256 ^ 1) : (UInt8.ofNat n).toNat = n := by
  rw [UInt8.toNat_ofNat']
  omega

/-- What follows the magic word in a written message. `flags` are the bytes that the format has for
the flags. -/
def fields (flags : Bytes) (message : OutboundMessage) : Bytes :=
  bytesOf 8 message.conv_id.toNat ++ (bytesOf 8 message.msg_id.toNat ++
    (bytesOf 8 message.sender_id.toNat ++ (bytesOf 8 message.recipient_id.toNat ++
      (bytesOf 8 message.timestamp_ms.toUInt64.toNat ++ (bytesOf 1 message.msg_type.byte.toNat ++
        (flags ++ (bytesOf 4 (UInt32.ofNat message.content.length).toNat ++ message.content)))))))

/-- The byte of the flags, in the format that has them. -/
theorem read_flags_eq_some {has_flags : Bool} {data rest : Bytes} {flags : Nat}
    (h : (if has_flags then read_pod 1 data else some (0, data)) = some (flags, rest)) :
    data = (if has_flags then bytesOf 1 (UInt8.ofNat flags).toNat else []) ++ rest := by
  cases has_flags with
  | true =>
    obtain ⟨hn, rfl⟩ := read_pod_eq_some h
    rw [if_pos rfl, toNat_uint8 hn]
  | false =>
    obtain ⟨_, rfl⟩ := Prod.mk.inj (Option.some.inj h)
    rfl

/-- The fields that are read are the fields that are written. -/
theorem fields_of_read {has_flags : Bool} {data : Bytes} {message : OutboundMessage}
    (h : read_fields has_flags data = some message) :
    message.content.length < 2 ^ 32 ∧
      data = fields (if has_flags then bytesOf 1 message.flags.toNat else []) message := by
  unfold read_fields at h
  obtain ⟨⟨conv_id, data₁⟩, h₁, h⟩ := Option.bind_eq_some_iff.mp h
  obtain ⟨⟨msg_id, data₂⟩, h₂, h⟩ := Option.bind_eq_some_iff.mp h
  obtain ⟨⟨sender_id, data₃⟩, h₃, h⟩ := Option.bind_eq_some_iff.mp h
  obtain ⟨⟨recipient_id, data₄⟩, h₄, h⟩ := Option.bind_eq_some_iff.mp h
  obtain ⟨⟨timestamp_ms, data₅⟩, h₅, h⟩ := Option.bind_eq_some_iff.mp h
  obtain ⟨⟨msg_type, data₆⟩, h₆, h⟩ := Option.bind_eq_some_iff.mp h
  obtain ⟨⟨flags, data₇⟩, h₇, h⟩ := Option.bind_eq_some_iff.mp h
  obtain ⟨⟨payload_len, content⟩, h₈, h⟩ := Option.bind_eq_some_iff.mp h
  dsimp only at h
  split at h
  · cases h
  · rename_i hlen
    obtain rfl := Option.some.inj h
    obtain ⟨hn₁, rfl⟩ := read_pod_eq_some h₁
    obtain ⟨hn₂, rfl⟩ := read_pod_eq_some h₂
    obtain ⟨hn₃, rfl⟩ := read_pod_eq_some h₃
    obtain ⟨hn₄, rfl⟩ := read_pod_eq_some h₄
    obtain ⟨hn₅, rfl⟩ := read_pod_eq_some h₅
    obtain ⟨hn₆, rfl⟩ := read_pod_eq_some h₆
    obtain rfl := read_flags_eq_some h₇
    obtain ⟨hn₈, rfl⟩ := read_pod_eq_some h₈
    have hcontent : content.length = payload_len := not_not.mp hlen
    have hlt : content.length < 2 ^ 32 := by omega
    have hfield : (UInt32.ofNat content.length).toNat = payload_len := by
      rw [UInt32.toNat_ofNat']
      omega
    refine ⟨hlt, ?_⟩
    unfold fields
    dsimp only
    rw [hfield, toNat_uint64 hn₁, toNat_uint64 hn₂, toNat_uint64 hn₃, toNat_uint64 hn₄,
      UInt64.toUInt64_toInt64, toNat_uint64 hn₅, toNat_uint8 hn₆]

theorem deserialize_eq_some {parse : ParseFromArray} {payload : Bytes} {message : OutboundMessage}
    (hmagic : kDeliveryMagic <+: payload) (h : deserialize_delivery parse payload = some message) :
    message.content.length < 2 ^ 32 ∧ serialize_delivery message = payload := by
  obtain ⟨data, rfl⟩ := hmagic
  unfold deserialize_delivery at h
  have hlong : ¬ (kDeliveryMagic ++ data).length < kDeliveryMagic.length := by
    rw [List.length_append]
    omega
  have htake : (kDeliveryMagic ++ data).take 4 = kDeliveryMagic := rfl
  rw [if_neg hlong, if_pos htake] at h
  obtain ⟨hlt, hdata⟩ := fields_of_read h
  have hread : (kDeliveryMagic ++ data).drop 4 = data := rfl
  rw [hread] at hdata
  refine ⟨hlt, ?_⟩
  rw [hdata]
  rfl

/-! ## Lengths -/

@[simp] theorem length_serialize (message : OutboundMessage) :
    (serialize_delivery message).length = 50 + message.content.length := by
  simp only [serialize_delivery, kDeliveryMagic, List.length_append, length_bytesOf,
    List.length_cons, List.length_nil]
  omega

/-- The number in the length field. -/
def payload_len (payload : Bytes) : Nat := numberOf ((payload.drop 46).take 4)

theorem payload_len_serialize {message : OutboundMessage} (h : message.content.length < 2 ^ 32)
    (rest : Bytes) : payload_len (serialize_delivery message ++ rest) = message.content.length := by
  have hfield : payload_len (serialize_delivery message ++ rest) =
      numberOf (bytesOf 4 (UInt32.ofNat message.content.length).toNat) := rfl
  have hlen : (UInt32.ofNat message.content.length).toNat = message.content.length := by
    rw [UInt32.toNat_ofNat']
    omega
  rw [hfield, hlen, numberOf_bytesOf]
  omega

/-- What is accepted is as long as its length field says. -/
theorem length_of_accepted {parse : ParseFromArray} {payload : Bytes} {message : OutboundMessage}
    (hmagic : kDeliveryMagic <+: payload) (h : deserialize_delivery parse payload = some message) :
    payload.length = 50 + payload_len payload := by
  obtain ⟨hlt, rfl⟩ := deserialize_eq_some hmagic h
  have hfield := payload_len_serialize hlt []
  rw [List.append_nil] at hfield
  rw [hfield, length_serialize]

/-- An accepted text is no longer accepted when it is cut, continued, or when another length is
written into it. -/
structure Exact (accepts : Bytes → Bool) (payload : Bytes) : Prop where
  truncation : ∀ k < payload.length, accepts (payload.take k) = false
  extension : ∀ rest, rest ≠ [] → accepts (payload ++ rest) = false
  length_field : ∀ n : UInt32, n.toNat ≠ payload_len payload →
    accepts (payload.take 46 ++ (bytesOf 4 n.toNat ++ payload.drop 50)) = false

theorem payload_len_take {b : Bytes} {k : Nat} (hk : 50 ≤ k) :
    payload_len (b.take k) = payload_len b := by
  unfold payload_len
  rw [List.drop_take, List.take_take, Nat.min_eq_left (by omega)]

theorem magic_prefix_take (message : OutboundMessage) {k : Nat} (hk : 4 ≤ k) :
    kDeliveryMagic <+: (serialize_delivery message).take k := by
  rw [List.prefix_take_iff]
  refine ⟨?_, hk⟩
  unfold serialize_delivery
  exact List.prefix_append _ _

/-- Without a magic word there must be a whole header. -/
theorem short_is_rejected {parse : ParseFromArray} {b : Bytes} (h : b.length < 4) :
    deserialize_delivery parse b = none := by
  have hmagic : b.length < kDeliveryMagic.length := h
  unfold deserialize_delivery deserialize_legacy_frame
  rw [if_pos hmagic]
  dsimp only
  rw [if_pos (by omega)]

theorem exact_serialize (parse : ParseFromArray) {message : OutboundMessage}
    (h : message.content.length < 2 ^ 32) :
    Exact (fun b => (deserialize_delivery parse b).isSome) (serialize_delivery message) := by
  have hlen := length_serialize message
  have hfield := payload_len_serialize h []
  rw [List.append_nil] at hfield
  have hrejects : ∀ b, kDeliveryMagic <+: b → b.length ≠ 50 + payload_len b →
      (deserialize_delivery parse b).isSome = false := by
    intro b hmagic hne
    rw [Option.isSome_eq_false_iff, Option.isNone_iff_eq_none, Option.eq_none_iff_forall_ne_some]
    intro m hm
    exact hne (length_of_accepted hmagic hm)
  constructor
  · intro k hk
    have htake : ((serialize_delivery message).take k).length = k := by
      rw [List.length_take]
      omega
    rcases Nat.lt_or_ge k 4 with hshort | hlong
    · rw [short_is_rejected (by omega)]
      rfl
    · apply hrejects _ (magic_prefix_take message hlong)
      rw [htake]
      rcases Nat.lt_or_ge k 50 with hcut | hwhole
      · omega
      · rw [payload_len_take hwhole]
        omega
  · intro rest hrest
    apply hrejects
    · unfold serialize_delivery
      rw [List.append_assoc]
      exact List.prefix_append _ _
    · rw [payload_len_serialize h, List.length_append, hlen]
      have hpos := List.length_pos_iff.mpr hrest
      omega
  · intro n hn
    have h46 : ((serialize_delivery message).take 46).length = 46 := by
      rw [List.length_take]
      omega
    have hbytes : payload_len ((serialize_delivery message).take 46 ++
        (bytesOf 4 n.toNat ++ (serialize_delivery message).drop 50)) = n.toNat := by
      unfold payload_len
      rw [List.drop_append_of_le_length (by omega), List.drop_of_length_le (by omega),
        List.nil_append, List.take_append_of_le_length (by rw [length_bytesOf]),
        List.take_of_length_le (by rw [length_bytesOf]), numberOf_bytesOf]
      have := n.toNat_lt
      omega
    apply hrejects
    · exact (magic_prefix_take message (by omega)).trans (List.prefix_append _ _)
    · rw [hbytes, List.length_append, List.length_append, h46, length_bytesOf, List.length_drop]
      omega

/-- A message survives the way through the format, and nothing else with the magic word is
accepted than what the format makes of a message. -/
theorem the_format_round_trips (parse : ParseFromArray) :
    (∀ message : OutboundMessage, message.content.length < 2 ^ 32 →
      deserialize_delivery parse (serialize_delivery message) = some message ∧
        Exact (fun b => (deserialize_delivery parse b).isSome) (serialize_delivery message)) ∧
    ∀ payload message, kDeliveryMagic <+: payload →
      deserialize_delivery parse payload = some message → serialize_delivery message = payload := by
  constructor
  · intro message h
    exact ⟨deserialize_serialize parse h, exact_serialize parse h⟩
  · intro payload message hmagic h
    exact (deserialize_eq_some hmagic h).2

/-- A greeting of two bytes. -/
theorem a_greeting_round_trips :
    deserialize_delivery (fun _ => none) (serialize_delivery { content := [0x68, 0x69] }) =
      some { content := [0x68, 0x69] } :=
  ((the_format_round_trips fun _ => none).1 { content := [0x68, 0x69] } (by decide)).1

end loomic.delivery_format
