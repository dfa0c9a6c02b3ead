-- The texts of a WebSocket session as the browser reads them: what enqueue
-- dumps, JSON.parse and handleSocketPayload understand.
import Loomic.Lib.JsonNumbers
import Loomic.TextDecoding
import Loomic.WebSocketTexts

open loomic.chat_frames (decode_bytes)
open loomic.delivery_format loomic.frame loomic.json loomic.queue loomic.text_decoding
open loomic.websocket_texts json_texts

namespace loomic.browser_texts

abbrev Json := json_texts.Value

/-! ## The browser -/

/-- The next message of a "chat" payload. A number keeps its text. -/
structure NextMessage where
  id : String
  conv_id : String
  sender_id : String
  content : String
  timestamp_ms : Number
  outgoing : Bool

/-- What `handleSocketPayload` tells apart. A payload of another type counts as a message. -/
inductive SocketPayload
  | pong
  | error (msg : Option String)
  | delivered (conv_id msg_id : String)
  | read (conv_id user_id : String) (ts_ms : Option Number)
  | typing (conv_id user_id : String)
  | delete_notify (conv_id msg_id : String)
  | message (m : NextMessage)

/-- A property that is a string. -/
def property (members : List (String × Json)) (key : String) : Option String :=
  match members.lookup key with
  | some (.string s) => some s
  | _ => none

def number_property (members : List (String × Json)) (key : String) : Option Number :=
  match members.lookup key with
  | some (.number n) => some n
  | _ => none

def next_message (self_user_id : Option String) (members : List (String × Json)) :
    Option NextMessage := do
  -- `payload.group_id ?? payload.conv_id`
  let conv_id ← (property members "group_id").or (property members "conv_id")
  let id ← property members "msg_id"
  let sender_id ← property members "sender_id"
  let content ← property members "content"
  let timestamp_ms ← number_property members "ts_ms"
  return {
    id := id
    conv_id := conv_id
    sender_id := sender_id
    content := content
    timestamp_ms := timestamp_ms
    outgoing := self_user_id = some sender_id }

def handle_socket_payload (self_user_id : Option String) : Json → Option SocketPayload
  | .object members => do
    let type ← property members "type"
    if type = "pong" then return .pong
    else if type = "error" then return .error (property members "msg")
    else if type = "delivered" then
      return .delivered (← property members "conv_id") (← property members "msg_id")
    else if type = "read" then
      return .read (← property members "conv_id") (← property members "user_id")
        (number_property members "ts_ms")
    else if type = "typing" then
      return .typing (← property members "conv_id") (← property members "user_id")
    else if type = "delete_notify" then
      return .delete_notify (← property members "conv_id") (← property members "msg_id")
    else return .message (← next_message self_user_id members)
  | _ => none

/-- `JSON.parse(event.data)`, where the data is the UTF-8 of the frame. -/
def parse_frame (data : Bytes) : Option Json := parse (decode_bytes {} data)

/-! ## What is dumped is parsed -/

/-- The UTF-8 of characters. -/
def utf8 (cs : List Char) : Bytes := cs.flatMap String.utf8EncodeChar

theorem utf8_append (cs ds : List Char) : utf8 (cs ++ ds) = utf8 cs ++ utf8 ds :=
  List.flatMap_append

theorem utf8_cons (c : Char) (cs : List Char) :
    utf8 (c :: cs) = String.utf8EncodeChar c ++ utf8 cs := List.flatMap_cons

theorem bytes_eq_utf8 (s : String) : bytes s = utf8 s.toList := bytes_eq_flatMap s

theorem decode_utf8 (cs : List Char) : decode_bytes {} (utf8 cs) = cs := by
  have hdecode := decode_bytes_encode (String.ofList cs)
  rwa [bytes_eq_utf8, String.toList_ofList] at hdecode

/-- A dumped value as the browser has it. -/
def shown : websocket_texts.Value → Json
  | .string s => .string (String.ofList (decode_bytes {} s))
  | .bool b => .bool b
  | .number n => .number (.of_int n.toInt)

def shown_member (member : String × websocket_texts.Value) : String × Json :=
  (member.1, shown member.2)

theorem escape_ascii : ∀ n < 128, (String.utf8EncodeChar (Char.ofNat n)).flatMap escape =
    utf8 (quote_char (Char.ofNat n)) := by
  decide +kernel

theorem escape_high {b : UInt8} (h : 0x80 ≤ b.toNat) : escape b = [b] := by
  have hne : ∀ k : UInt8, k.toNat < 0x80 → b ≠ k := by
    rintro k hk rfl
    omega
  have hle : ¬ b ≤ 0x1F := by
    rw [UInt8.le_iff_toNat_le]
    change ¬ b.toNat ≤ 31
    omega
  unfold escape
  simp only [hne _ (show (0x08 : UInt8).toNat < 0x80 by decide),
    hne _ (show (0x09 : UInt8).toNat < 0x80 by decide),
    hne _ (show (0x0A : UInt8).toNat < 0x80 by decide),
    hne _ (show (0x0C : UInt8).toNat < 0x80 by decide),
    hne _ (show (0x0D : UInt8).toNat < 0x80 by decide),
    hne _ (show (0x22 : UInt8).toNat < 0x80 by decide),
    hne _ (show (0x5C : UInt8).toNat < 0x80 by decide), hle, if_false]

theorem high_bytes {c : Char} (h : 0x80 ≤ c.toNat) :
    ∀ b ∈ String.utf8EncodeChar c, 0x80 ≤ b.toNat := by
  have hval : c.val.toNat = c.toNat := rfl
  have hmarked : ∀ {low mark : Nat}, 0x80 ≤ mark → low + mark < 256 →
      0x80 ≤ (UInt8.ofNat (low + mark)).toNat := by
    intro low mark hmark hlt
    rw [toNat_byte hlt]
    omega
  intro b hb
  unfold String.utf8EncodeChar at hb
  rw [hval] at hb
  dsimp only at hb
  split_ifs at hb
  · omega
  · simp only [List.mem_cons, List.not_mem_nil, or_false] at hb
    obtain rfl | rfl := hb
    · exact hmarked (by omega) (by omega)
    · exact hmarked (by omega) (by omega)
  · simp only [List.mem_cons, List.not_mem_nil, or_false] at hb
    obtain rfl | rfl | rfl := hb
    · exact hmarked (by omega) (by omega)
    · exact hmarked (by omega) (by omega)
    · exact hmarked (by omega) (by omega)
  · simp only [List.mem_cons, List.not_mem_nil, or_false] at hb
    obtain rfl | rfl | rfl | rfl := hb
    · exact hmarked (by omega) (by omega)
    · exact hmarked (by omega) (by omega)
    · exact hmarked (by omega) (by omega)
    · exact hmarked (by omega) (by omega)

theorem flatMap_escape_high {bs : Bytes} (h : ∀ b ∈ bs, 0x80 ≤ b.toNat) :
    bs.flatMap escape = bs := by
  induction bs with
  | nil => rfl
  | cons b bs ih =>
    rw [List.flatMap_cons, escape_high (h b List.mem_cons_self),
      ih fun b' hb' => h b' (List.mem_cons_of_mem b hb')]
    rfl

/-- nlohmann escapes a character as JavaScript does. -/
theorem escape_char (c : Char) :
    (String.utf8EncodeChar c).flatMap escape = utf8 (quote_char c) := by
  by_cases h : c.toNat < 128
  · have hascii := escape_ascii c.toNat h
    rwa [Char.ofNat_toNat] at hascii
  · have hne : ∀ d : Char, d.toNat < 128 → c ≠ d := by
      rintro d hd rfl
      exact h hd
    have hquote : quote_char c = [c] := by
      unfold quote_char
      rw [if_neg (hne _ (by decide)), if_neg (hne _ (by decide)), if_neg (by omega),
        if_neg (by omega), if_neg (by omega), if_neg (by omega), if_neg (by omega),
        if_neg (by omega)]
    rw [hquote, flatMap_escape_high (high_bytes (by omega))]
    simp [utf8]

theorem dump_string_bytes (s : String) : dump_string (bytes s) = some (utf8 (quote s)) := by
  have hescape : (bytes s).flatMap escape = utf8 (s.toList.flatMap quote_char) := by
    rw [bytes_eq_utf8, utf8, utf8, List.flatMap_assoc, List.flatMap_assoc]
    exact List.flatMap_congr fun c _ => escape_char c
  have hquote : utf8 ['"'] = [0x22] := by decide
  rw [dump_string, if_pos (is_utf8_bytes s), hescape, quote, utf8_append, hquote, utf8_cons]
  rfl

/-- What can be dumped are the bytes of a text. -/
theorem text_of_utf8 {b : Bytes} (h : websocket_texts.is_utf8 b) : ∃ s : String, bytes s = b := by
  have hvalid := ByteArray.validateUTF8_eq_true_iff.mp h
  refine ⟨String.fromUTF8 _ hvalid, ?_⟩
  rw [bytes_eq]
  rfl

/-- A text that is dumped is shown. -/
theorem shown_bytes (s : String) : shown (.string (bytes s)) = .string s := by
  rw [shown, decode_bytes_encode, String.ofList_toList]

theorem dump_value {v : websocket_texts.Value} {json : Bytes} (h : v.dump = some json) :
    json = utf8 (stringify (shown v)) := by
  cases v with
  | string b =>
    have hutf8 : websocket_texts.is_utf8 b := (dump_string_isSome b).mp (by
      rw [show dump_string b = some json from h]
      rfl)
    obtain ⟨s, rfl⟩ := text_of_utf8 hutf8
    rw [shown_bytes, stringify]
    exact (Option.some.inj ((dump_string_bytes s).symm.trans h)).symm
  | bool b =>
    obtain rfl := Option.some.inj h
    cases b
    · exact bytes_eq_utf8 "false"
    · exact bytes_eq_utf8 "true"
  | number n =>
    obtain rfl := Option.some.inj h
    rw [shown, stringify, of_int_text, bytes_eq_utf8]

/-- A member without the sign before it. -/
def member_text (member : String × Json) : List Char :=
  quote member.1 ++ ':' :: stringify member.2

theorem dump_member_text {member : String × websocket_texts.Value} {json : Bytes}
    (h : dump_member member = some json) : json = utf8 (member_text (shown_member member)) := by
  unfold dump_member at h
  rw [dump_string_bytes, Option.bind_some, Option.map_eq_some_iff] at h
  obtain ⟨value, hvalue, rfl⟩ := h
  have hcolon : String.utf8EncodeChar ':' = [0x3A] := by decide
  rw [member_text, utf8_append, utf8_cons, hcolon, dump_value hvalue]
  rfl

theorem stringify_members_eq (members : List (String × Json)) :
    stringify_members members = members.flatMap (fun m => ',' :: member_text m) ++ ['\x7d'] := by
  induction members with
  | nil => rw [stringify_members, List.flatMap_nil, List.nil_append]
  | cons m members ih =>
    obtain ⟨key, v⟩ := m
    rw [stringify_members, List.flatMap_cons, ih, member_text]
    simp

theorem intercalate_cons (sep first : Bytes) (rest : List Bytes) :
    sep.intercalate (first :: rest) = first ++ rest.flatMap (sep ++ ·) := by
  induction rest generalizing first with
  | nil => simp
  | cons second rest ih =>
    rw [List.intercalate_cons_cons, ih, List.flatMap_cons]
    simp

theorem dump_members_text {members : List (String × websocket_texts.Value)} {texts : List Bytes}
    (h : members.mapM dump_member = some texts) :
    texts = members.map fun m => utf8 (member_text (shown_member m)) := by
  induction members generalizing texts with
  | nil =>
    obtain rfl := Option.some.inj h
    rfl
  | cons m members ih =>
    rw [List.mapM_cons, Option.bind_eq_bind, Option.bind_eq_some_iff] at h
    obtain ⟨first, hfirst, h⟩ := h
    rw [Option.bind_eq_bind, Option.bind_eq_some_iff] at h
    obtain ⟨rest, hrest, h⟩ := h
    obtain rfl := Option.some.inj h
    rw [List.map_cons, dump_member_text hfirst, ih hrest]

/-- `dump` writes what `JSON.stringify` would write. -/
theorem dump_eq_stringify {members : List (String × websocket_texts.Value)} {json : Bytes}
    (h : dump members = some json) :
    json = utf8 (stringify (.object (members.map shown_member))) := by
  have hopen : utf8 ['\x7b'] = [0x7B] := by decide
  have hclose : utf8 ['\x7d'] = [0x7D] := by decide
  have hcomma : utf8 [','] = [0x2C] := by decide
  unfold dump at h
  rw [Option.map_eq_some_iff] at h
  obtain ⟨texts, htexts, rfl⟩ := h
  rw [dump_members_text htexts]
  rcases members with _ | ⟨m, members⟩
  · rw [List.map_nil, List.map_nil, stringify]
    decide
  · have hrest : (members.map fun m => utf8 (member_text (shown_member m))).flatMap
        ([0x2C] ++ ·) =
          utf8 ((members.map shown_member).flatMap fun m => ',' :: member_text m) := by
      simp only [utf8, List.flatMap_map, List.flatMap_assoc]
      refine List.flatMap_congr fun m _ => ?_
      rw [List.flatMap_cons]
      rfl
    have htext : stringify (.object ((m :: members).map shown_member)) =
        ['\x7b'] ++ (member_text (shown_member m) ++
          ((members.map shown_member).flatMap (fun m => ',' :: member_text m) ++ ['\x7d'])) := by
      rw [List.map_cons, shown_member, stringify, stringify_members_eq, member_text]
      simp
    rw [List.map_cons, intercalate_cons, hrest, htext]
    simp only [utf8_append, hopen, hclose]
    simp

/-- An object with different keys is parsed as it was dumped. -/
theorem parse_dump {members : List (String × websocket_texts.Value)} {json : Bytes}
    (hkeys : (members.map Prod.fst).Nodup) (h : dump members = some json) :
    parse_frame json = some (.object (members.map shown_member)) := by
  have hvalid : json_texts.Value.Valid (.object (members.map shown_member)) := by
    refine .object ?_ ?_
    · rw [List.map_map]
      exact hkeys
    · intro m hm
      obtain ⟨⟨key, v⟩, _, rfl⟩ := List.mem_map.mp hm
      cases v with
      | string s => exact .string _
      | bool b => exact .bool b
      | number n => exact .number _
  rw [parse_frame, dump_eq_stringify h, decode_utf8, parse_stringify hvalid]

theorem keys_nodup (message : OutboundMessage) :
    ((members_of message).map Prod.fst).Nodup := by
  unfold members_of
  split_ifs <;> simp

/-! ## The law -/

/-- The decimal text of an id. -/
def id_text (id : UInt64) : String := toString id.toNat

/-- What a message is to say to the page of a user. -/
inductive Says (self_user_id : Option String) (message : OutboundMessage) : SocketPayload → Prop
  | delete_notify (h : message.msg_type = .DELETE_NOTIFY) : Says self_user_id message
      (.delete_notify (id_text message.conv_id) (id_text message.msg_id))
  | delivered (h : message.msg_type = .DELIVERED) : Says self_user_id message
      (.delivered (id_text message.conv_id) (id_text message.msg_id))
  | read (h : message.msg_type = .READ) : Says self_user_id message
      (.read (id_text message.conv_id) (id_text message.sender_id) none)
  | typing (h : message.msg_type = .TYPING) : Says self_user_id message
      (.typing (id_text message.conv_id) (id_text message.sender_id))
  | message (h : message.msg_type ∉ without_content) {content : String}
      (hcontent : bytes content = message.content) : Says self_user_id message (.message {
        id := id_text message.msg_id
        conv_id := id_text message.conv_id
        sender_id := id_text message.sender_id
        content := content
        timestamp_ms := .of_int message.timestamp_ms.toInt
        outgoing := self_user_id = some (id_text message.sender_id) })

theorem shown_to_string (id : UInt64) : shown (to_string id) = .string (id_text id) :=
  shown_bytes _

theorem shown_text (s : String) : shown (text s) = .string s := shown_bytes s

/-- The page understands what was dumped for a message. -/
theorem payload_says (self_user_id : Option String) {message : OutboundMessage}
    (h : (dump (members_of message)).isSome) :
    ∃ payload, handle_socket_payload self_user_id
        (.object ((members_of message).map shown_member)) = some payload ∧
      Says self_user_id message payload := by
  rw [dump_members_isSome] at h
  unfold members_of
  split_ifs with hdelete hdelivered hread htyping hgroup
  · refine ⟨_, ?_, .delete_notify hdelete⟩
    simp [handle_socket_payload, property, shown_member, shown_to_string, shown_text,
      List.lookup_cons]
  · refine ⟨_, ?_, .delivered hdelivered⟩
    simp [handle_socket_payload, property, shown_member, shown_to_string, shown_text,
      List.lookup_cons]
  · refine ⟨_, ?_, .read hread⟩
    simp [handle_socket_payload, property, number_property, shown_member, shown_to_string,
      shown_text, List.lookup_cons]
  · refine ⟨_, ?_, .typing htyping⟩
    simp [handle_socket_payload, property, shown_member, shown_to_string, shown_text,
      List.lookup_cons]
  all_goals
    have hother : message.msg_type ∉ without_content := by
      simp [without_content, hdelete, hdelivered, hread, htyping]
    obtain ⟨content, hcontent⟩ := text_of_utf8 (h.resolve_left hother)
    have hshown : shown (.string message.content) = .string content :=
      hcontent ▸ shown_bytes content
    have hnumber : shown (.number message.timestamp_ms) =
        .number (.of_int message.timestamp_ms.toInt) := rfl
    refine ⟨_, ?_, .message hother hcontent⟩
    -- The `group_id` is the conversation's id too.
    simp [handle_socket_payload, property, number_property, next_message, shown_member,
      shown_to_string, shown_text, hshown, hnumber, List.lookup_cons]

/-- Whatever message a WebSocket session appends a text for, the page understands what it
says: the ids, the content and the time are those of the message. -/
theorem the_page_understands_what_is_appended (parse : ParseFromArray)
    (self_user_id : Option String) {q q' : WriteQueue Bytes} {frame : Bytes}
    {message : OutboundMessage} (hmessage : deserialize_delivery parse frame = some message)
    (h : enqueue parse q frame = some q') :
    ∃ json payload, q'.write_queue = q.write_queue ++ [json] ∧
      (parse_frame json).bind (handle_socket_payload self_user_id) = some payload ∧
      Says self_user_id message payload := by
  unfold enqueue at h
  simp only [hmessage, Option.map_eq_some_iff] at h
  obtain ⟨json, hjson, rfl⟩ := h
  obtain ⟨payload, hpayload, hsays⟩ := payload_says self_user_id (by rw [hjson]; rfl)
  refine ⟨json, payload, write_queue_push, ?_, hsays⟩
  rw [parse_dump (keys_nodup message) hjson, Option.bind_some, hpayload]

def greeting : OutboundMessage := { sender_id := 7, content := bytes "hi" }

theorem the_page_understands_a_greeting :
    ∃ q' : WriteQueue Bytes,
      enqueue (fun _ => none) .empty (serialize_delivery greeting) = some q' ∧
      ∃ json payload, q'.write_queue = WriteQueue.empty.write_queue ++ [json] ∧
        (parse_frame json).bind (handle_socket_payload (some "7")) = some payload ∧
        Says (some "7") greeting payload := by
  have hmessage : deserialize_delivery (fun _ => none) (serialize_delivery greeting) =
      some greeting := deserialize_serialize _ (by decide +kernel)
  obtain ⟨json, hjson⟩ := Option.isSome_iff_exists.mp
    ((dump_members_isSome greeting).mpr (.inr (is_utf8_bytes "hi")))
  have henqueue : enqueue (fun _ => none) .empty (serialize_delivery greeting) =
      some (WriteQueue.empty.push json) := by
    unfold enqueue
    simp only [hmessage, hjson, Option.map_some]
  exact ⟨_, henqueue, the_page_understands_what_is_appended _ (some "7") hmessage henqueue⟩

end loomic.browser_texts
