-- The JSON text that a WebSocket session writes for a message
-- (WebSocketSession::enqueue). Content is bytes to a TCP client and text to a
-- browser, and nlohmann dumps no string that is not UTF-8.
import Loomic.DeliveryFormat
import Loomic.SessionRun
import Loomic.WriteQueue

open loomic.delivery_format loomic.frame loomic.json loomic.queue loomic.session_run

namespace loomic.websocket_texts

/-! ## nlohmann::json::dump -/

/-- The values that are written. A `std::string` is bytes. -/
inductive Value
  | string (s : Bytes)
  | bool (b : Bool)
  | number (n : Int64)

def is_utf8 (s : Bytes) : Bool := (ByteArray.mk s.toArray).validateUTF8

def hex_digit (n : UInt8) : UInt8 := if n < 10 then 0x30 + n else 0x57 + n

/-- Quotes, backslashes and control characters are escaped. The other bytes stand as they are. -/
def escape (b : UInt8) : Bytes :=
  if b = 0x08 then [0x5C, 0x62]
  else if b = 0x09 then [0x5C, 0x74]
  else if b = 0x0A then [0x5C, 0x6E]
  else if b = 0x0C then [0x5C, 0x66]
  else if b = 0x0D then [0x5C, 0x72]
  else if b = 0x22 then [0x5C, 0x22]
  else if b = 0x5C then [0x5C, 0x5C]
  else if b ≤ 0x1F then [0x5C, 0x75, 0x30, 0x30, hex_digit (b / 16), hex_digit (b % 16)]
  else [b]

/-- The strict error handler throws at a string that is not UTF-8. -/
def dump_string (s : Bytes) : Option Bytes :=
  if is_utf8 s then some (0x22 :: s.flatMap escape ++ [0x22]) else none

def Value.dump : Value → Option Bytes
  | .string s => dump_string s
  | .bool b => some (bytes (if b then "true" else "false"))
  | .number n => some (bytes (toString n.toInt))

def dump_member (member : String × Value) : Option Bytes :=
  (dump_string (bytes member.1)).bind fun key => member.2.dump.map fun value => key ++ 0x3A :: value

/-- An object keeps its members in the order of their keys. -/
def dump (members : List (String × Value)) : Option Bytes :=
  (members.mapM dump_member).map fun texts => 0x7B :: [0x2C].intercalate texts ++ [0x7D]

/-! ## WebSocketSession::enqueue -/

/-- `std::to_string`. -/
def to_string (id : UInt64) : Value := .string (bytes (toString id.toNat))

def text (s : String) : Value := .string (bytes s)

/-- The members of the object for a message. -/
def members_of (message : OutboundMessage) : List (String × Value) :=
  if message.msg_type = .DELETE_NOTIFY then
    [("conv_id", to_string message.conv_id), ("msg_id", to_string message.msg_id),
      ("type", text "delete_notify")]
  else if message.msg_type = .DELIVERED then
    [("conv_id", to_string message.conv_id), ("msg_id", to_string message.msg_id),
      ("type", text "delivered"), ("user_id", to_string message.sender_id)]
  else if message.msg_type = .READ then
    [("conv_id", to_string message.conv_id), ("type", text "read"),
      ("user_id", to_string message.sender_id)]
  else if message.msg_type = .TYPING then
    [("conv_id", to_string message.conv_id),
      ("is_group", .bool (message.flags &&& kFlagIsGroup != 0)), ("type", text "typing"),
      ("user_id", to_string message.sender_id)]
  else
    [("content", .string message.content), ("conv_id", to_string message.conv_id)] ++
      (if message.flags &&& kFlagIsGroup != 0 then [("group_id", to_string message.conv_id)]
        else []) ++
      [("msg_id", to_string message.msg_id), ("sender_id", to_string message.sender_id),
        ("ts_ms", .number message.timestamp_ms), ("type", text "chat")]

/-- `none` is an exception. Bytes that are no message are dropped. -/
def enqueue (parse : ParseFromArray) (q : WriteQueue Bytes) (frame : Bytes) :
    Option (WriteQueue Bytes) :=
  match deserialize_delivery parse frame with
  | none => some q
  | some message => (dump (members_of message)).map q.push

/-! ## What can be dumped -/

/-- The bytes of a string are UTF-8. -/
theorem is_utf8_bytes (s : String) : is_utf8 (bytes s) := by
  unfold is_utf8
  rw [bytes_eq, ByteArray.validateUTF8_eq_true_iff]
  exact s.isValidUTF8

theorem dump_string_isSome (s : Bytes) : (dump_string s).isSome ↔ is_utf8 s := by
  unfold dump_string
  by_cases h : is_utf8 s <;> simp [h]

/-- Every value but a string can be dumped. -/
def Value.is_utf8 : Value → Bool
  | .string s => websocket_texts.is_utf8 s
  | .bool _ | .number _ => true

@[simp] theorem is_utf8_string (s : Bytes) :
    (Value.string s).is_utf8 = websocket_texts.is_utf8 s := rfl

@[simp] theorem is_utf8_bool (b : Bool) : (Value.bool b).is_utf8 := rfl

@[simp] theorem is_utf8_number (n : Int64) : (Value.number n).is_utf8 := rfl

theorem dump_value_isSome (v : Value) : v.dump.isSome ↔ v.is_utf8 := by
  cases v with
  | string s => exact dump_string_isSome s
  | bool b => simp [Value.dump, Value.is_utf8]
  | number n => simp [Value.dump, Value.is_utf8]

theorem dump_member_isSome (member : String × Value) :
    (dump_member member).isSome ↔ member.2.is_utf8 := by
  have hkey : (dump_string (bytes member.1)).isSome :=
    (dump_string_isSome _).mpr (is_utf8_bytes member.1)
  obtain ⟨key, hkey⟩ := Option.isSome_iff_exists.mp hkey
  unfold dump_member
  rw [hkey, Option.bind_some, Option.isSome_map, dump_value_isSome]

theorem mapM_isSome {β γ : Type} (f : β → Option γ) (l : List β) :
    (l.mapM f).isSome ↔ ∀ x ∈ l, (f x).isSome := by
  induction l with
  | nil => simp
  | cons x l ih =>
    rw [List.mapM_cons, List.forall_mem_cons, ← ih]
    cases f x <;> cases l.mapM f <;> simp

theorem dump_isSome (members : List (String × Value)) :
    (dump members).isSome ↔ ∀ member ∈ members, member.2.is_utf8 := by
  unfold dump
  rw [Option.isSome_map, mapM_isSome]
  simp only [dump_member_isSome]

theorem to_string_is_utf8 (id : UInt64) : (to_string id).is_utf8 := is_utf8_bytes _

theorem text_is_utf8 (s : String) : (text s).is_utf8 := is_utf8_bytes s

/-- The types whose texts leave the content out. -/
def without_content : List MsgType := [.DELETE_NOTIFY, .DELIVERED, .READ, .TYPING]

/-- Only the content of a message may stand in the way. -/
theorem dump_members_isSome (message : OutboundMessage) :
    (dump (members_of message)).isSome ↔
      message.msg_type ∈ without_content ∨ is_utf8 message.content := by
  rw [dump_isSome]
  unfold members_of without_content
  split_ifs with hdel hdelivered hread htyping
  · simp [hdel, to_string_is_utf8, text_is_utf8]
  · simp [hdelivered, to_string_is_utf8, text_is_utf8]
  · simp [hread, to_string_is_utf8, text_is_utf8]
  · simp [htyping, to_string_is_utf8, text_is_utf8]
  · simp only [List.mem_cons, hdel, hdelivered, hread, htyping, List.not_mem_nil, or_self,
      false_or]
    simp [to_string_is_utf8, text_is_utf8]
  · simp only [List.mem_cons, hdel, hdelivered, hread, htyping, List.not_mem_nil, or_self,
      false_or]
    simp [to_string_is_utf8, text_is_utf8]

/-- What the sessions ask of a message before they enqueue it. -/
theorem dump_isSome_iff_dumps (message : OutboundMessage) :
    (dump (members_of message)).isSome ↔ WebSocketSession.dumps message := by
  rw [dump_members_isSome]
  unfold WebSocketSession.dumps without_content is_utf8
  simp

/-! ## The law -/

/-- `enqueue` returns, and has appended one JSON text. -/
def Appends (parse : ParseFromArray) (q : WriteQueue Bytes) (message : OutboundMessage) : Prop :=
  ∃ q' json, enqueue parse q (serialize_delivery message) = some q' ∧
    dump (members_of message) = some json ∧ q'.write_queue = q.write_queue ++ [json]

/-- A message of any session is appended as one JSON text exactly when its text leaves the
content out, or the content is UTF-8. -/
theorem a_message_is_appended_iff_its_content_is_text (parse : ParseFromArray)
    (q : WriteQueue Bytes) {message : OutboundMessage}
    (hlen : message.content.length < 2 ^ 32) :
    Appends parse q message ↔
      message.msg_type ∈ without_content ∨ is_utf8 message.content := by
  rw [← dump_members_isSome]
  constructor
  · rintro ⟨q', json, _, hjson, _⟩
    rw [hjson]
    rfl
  · intro h
    obtain ⟨json, hjson⟩ := Option.isSome_iff_exists.mp h
    refine ⟨q.push json, json, ?_, hjson, write_queue_push⟩
    unfold enqueue
    rw [deserialize_serialize parse hlen]
    simp only [hjson, Option.map_some]

theorem a_greeting_is_appended :
    Appends (fun _ => none) .empty { content := bytes "hi" } :=
  (a_message_is_appended_iff_its_content_is_text _ _ (by decide +kernel)).mpr
    (.inr (is_utf8_bytes "hi"))

/-- A CHAT frame over TCP whose payload is the byte 0xFF. -/
theorem a_byte_may_not_be_appended :
    enqueue (fun _ => none) .empty (serialize_delivery { content := [0xFF] }) = none ∧
      ¬ Appends (fun _ => none) .empty { content := [0xFF] } := by
  have hnone :
      enqueue (fun _ => none) .empty (serialize_delivery { content := [0xFF] }) = none := by
    decide +kernel
  refine ⟨hnone, ?_⟩
  rintro ⟨q', json, hq, _⟩
  rw [hnone] at hq
  cases hq

end loomic.websocket_texts
