-- One text on its ways to a reader: as JSON through the socket, and in base64
-- from the history, which the browser and the CLI decode.
import Loomic.BrowserTexts
import Loomic.History
import Loomic.Lib.Base64

open loomic.browser_texts (NextMessage handle_socket_payload id_text parse_frame Says)
open loomic.chat_frames (decode_bytes text_decode)
open loomic.delivery_format loomic.frame loomic.http_handlers loomic.json loomic.queue
open loomic.routing loomic.text_decoding loomic.websocket_texts
open json_texts (Number)

namespace loomic.shown_texts

/-! ## The server -/

/-- The columns of a message, as `select_history` reads them. -/
def stored (m : OutboundMessage) : HistoryRow where
  msg_id := m.msg_id
  sender_id := m.sender_id
  recipient_id := m.recipient_id
  content := m.content
  msg_type := m.msg_type.byte.toNat
  ts_ms := m.timestamp_ms.toInt

/-- `base64_encode` of ConversationsHandler, and of CassandraClient. -/
def base64_encode (data : Bytes) : String :=
  -- The length is cast to an `int`, and nothing is written for a negative one.
  let size := data.length % 2 ^ 32
  if size < 2 ^ 31 then String.ofList (base64.pad (base64.standard.encode (data.take size)))
  else ""

theorem base64_encode_eq {data : Bytes} (h : data.length < 2 ^ 31) :
    base64_encode data = String.ofList (base64.pad (base64.standard.encode data)) := by
  have hsize : data.length % 2 ^ 32 = data.length := Nat.mod_eq_of_lt (by omega)
  unfold base64_encode
  simp only [hsize, h, if_true, List.take_length]

/-! ## The browser -/

/-- `atob` throws at a text that is no base64. -/
def decode_base64_content (value : String) : String :=
  match base64.atob value.toList with
  | some binary => text_decode binary
  | none => ""

def property (key : String) : Json → Option Json
  | .object members => members.lookup key
  | _ => none

def string_property (key : String) (item : Json) : Option String :=
  match property key item with
  | some (.string s) => some s
  | _ => none

def number_property (key : String) (item : Json) : Option Number :=
  match property key item with
  | some (.number text) =>
    if h : text.toList.all json_texts.number_char = true ∧ json_texts.is_number text.toList = true
    then some ⟨text.toList, h.1, h.2⟩ else none
  | _ => none

/-- An entry of the history. A message of the socket has its conversation as the recipient. -/
structure HistoryMessage extends NextMessage where
  recipient_id : String

def normalize_history_message (item : Json) (conv_id : String) (self_user_id : Option String) :
    Option HistoryMessage := do
  let id ← string_property "msg_id" item
  let sender_id ← string_property "sender_id" item
  let recipient_id ← string_property "recipient_id" item
  let content_b64 ← string_property "content_b64" item
  let timestamp_ms ← number_property "ts_ms" item
  return {
    id := id
    conv_id := conv_id
    sender_id := sender_id
    recipient_id := recipient_id
    content := decode_base64_content content_b64
    timestamp_ms := timestamp_ms
    outgoing := self_user_id = some sender_id }

/-! ## The CLI -/

/-- `base64.b64decode`, which takes ASCII only. -/
def b64decode (raw : String) : Option Bytes :=
  if raw.toList.all (·.toNat < 128) then base64.a2b_base64 raw.toList else none

/-- The text of an item in `cmd_history`. -/
def history_content (item : Json) : String :=
  -- `m.get("content_b64") or m.get("content", "")`
  let raw := match string_property "content_b64" item with
    | some raw => if raw = "" then (string_property "content" item).getD "" else raw
    | none => (string_property "content" item).getD ""
  if raw = "" then ""
  else match b64decode raw with
    | some content => String.ofList (decode_bytes {} content)
    | none => raw

/-! ## The socket -/

/-- The entry of a message that a session has written. -/
def live_message (parse : ParseFromArray) (self_user_id : Option String) (m : OutboundMessage) :
    Option NextMessage := do
  let q ← enqueue parse .empty (serialize_delivery m)
  let json ← q.write_queue.head?
  let payload ← (parse_frame json).bind (handle_socket_payload self_user_id)
  match payload with
  | .message next_message => some next_message
  | _ => none

/-- The entry of a message with the text. -/
def entry (self_user_id : Option String) (m : OutboundMessage) (content : String) :
    NextMessage where
  id := id_text m.msg_id
  conv_id := id_text m.conv_id
  sender_id := id_text m.sender_id
  content := content
  timestamp_ms := .of_int m.timestamp_ms.toInt
  outgoing := self_user_id = some (id_text m.sender_id)

theorem bytes_inj {s t : String} (h : bytes s = bytes t) : s = t := by
  rw [← String.toList_inj, ← decode_bytes_encode s, ← decode_bytes_encode t, h]

section Texts

variable {m : OutboundMessage} {s : String} (parse : ParseFromArray)
  (self_user_id : Option String)

theorem live_message_eq (htype : m.msg_type ∉ without_content) (hs : m.content = bytes s)
    (hlen : m.content.length < 2 ^ 32) :
    live_message parse self_user_id m = some (entry self_user_id m s) := by
  have hdumps : (dump (members_of m)).isSome :=
    (dump_members_isSome m).mpr (.inr (by rw [hs]; exact is_utf8_bytes s))
  obtain ⟨payload, hpayload, hsays⟩ := browser_texts.payload_says self_user_id hdumps
  obtain ⟨json, hjson⟩ := Option.isSome_iff_exists.mp hdumps
  have henqueue : enqueue parse .empty (serialize_delivery m) =
      some (WriteQueue.empty.push json) := by
    unfold enqueue
    simp only [deserialize_serialize parse hlen, hjson, Option.map_some]
  have hhead : (WriteQueue.empty.push json).write_queue.head? = some json := by
    rw [write_queue_push]
    rfl
  unfold live_message
  rw [henqueue, Option.bind_eq_bind, Option.bind_some, hhead, Option.bind_eq_bind,
    Option.bind_some, browser_texts.parse_dump (browser_texts.keys_nodup m) hjson,
    Option.bind_some, hpayload]
  cases hsays with
  | delete_notify h => exact absurd (by simp [h, without_content]) htype
  | delivered h => exact absurd (by simp [h, without_content]) htype
  | read h => exact absurd (by simp [h, without_content]) htype
  | typing h => exact absurd (by simp [h, without_content]) htype
  | message _ hcontent =>
    obtain rfl := bytes_inj (hcontent.trans hs)
    rfl

/-! ## The history -/

theorem decode_base64_encode {data : Bytes} (h : data.length < 2 ^ 31) :
    decode_base64_content (base64_encode data) = text_decode data := by
  rw [base64_encode_eq h, decode_base64_content, String.toList_ofList, base64.atob_pad_encode]

theorem number_property_of {key : String} {item : Json} {n : Int}
    (h : property key item = some (number n)) : number_property key item = some (.of_int n) := by
  have htext : (toString n).toList = (Number.of_int n).text := (json_texts.of_int_text n).symm
  unfold number_property
  rw [h]
  have hchars : (toString n).toList.all json_texts.number_char = true ∧
      json_texts.is_number (toString n).toList = true := by
    rw [htext]
    exact ⟨(Number.of_int n).chars, (Number.of_int n).form⟩
  exact (dif_pos hchars).trans (congrArg some (json_texts.Number.ext htext))

/-- The entry of a row. -/
theorem normalize_history_json (hlen : m.content.length < 2 ^ 31) :
    normalize_history_message (history_json base64_encode (stored m)) (id_text m.conv_id)
        self_user_id =
      some { entry self_user_id m (text_decode m.content) with
        recipient_id := id_text m.recipient_id } := by
  have hts : number_property "ts_ms" (history_json base64_encode (stored m)) =
      some (.of_int m.timestamp_ms.toInt) := number_property_of rfl
  have hcontent : decode_base64_content (base64_encode (stored m).content) =
      text_decode m.content := decode_base64_encode hlen
  unfold normalize_history_message
  rw [hts]
  change some _ = some _
  rw [hcontent]
  rfl

end Texts

/-- `TextDecoder` drops one mark at the start. -/
theorem text_decode_mark {s : String} {cs : List Char} (h : s.toList = BYTE_ORDER_MARK :: cs) :
    text_decode (bytes s) = String.ofList cs := by
  have hmark : String.utf8EncodeChar BYTE_ORDER_MARK = [0xEF, 0xBB, 0xBF] := by decide
  have hbytes : bytes s = [0xEF, 0xBB, 0xBF] ++ browser_texts.utf8 cs := by
    rw [browser_texts.bytes_eq_utf8, h, browser_texts.utf8_cons, hmark]
  have htake : (bytes s).take 3 = [0xEF, 0xBB, 0xBF] := by
    rw [hbytes]
    rfl
  have hdrop : (bytes s).drop 3 = browser_texts.utf8 cs := by
    rw [hbytes]
    rfl
  unfold text_decode
  rw [if_pos htake, hdrop, browser_texts.decode_utf8]

theorem text_decode_bytes_iff (s : String) :
    text_decode (bytes s) = s ↔ s.toList.head? ≠ some BYTE_ORDER_MARK := by
  refine ⟨fun hdecode hhead => ?_, text_decode_bytes⟩
  obtain ⟨cs, hcs⟩ := List.head?_eq_some_iff.mp hhead
  rw [text_decode_mark hcs, ← String.toList_inj, String.toList_ofList, hcs] at hdecode
  have hlen := congrArg List.length hdecode
  rw [List.length_cons] at hlen
  omega

theorem ascii_of_mem {data : Bytes} {c : Char}
    (h : c ∈ base64.pad (base64.standard.encode data)) : c.toNat < 128 := by
  rcases List.mem_append.mp h with h | h
  · obtain ⟨v, hv, rfl, _⟩ := base64.value_of_mem base64.standard h
    have hall : ∀ v < 64, (base64.standard.char v).toNat < 128 := by decide
    exact hall v hv
  · rw [List.eq_of_mem_replicate h]
    decide

theorem b64decode_encode {data : Bytes} (h : data.length < 2 ^ 31) :
    b64decode (base64_encode data) = some data := by
  unfold b64decode
  rw [base64_encode_eq h, String.toList_ofList, if_pos, base64.a2b_pad_encode]
  exact List.all_eq_true.mpr fun c hc => decide_eq_true (ascii_of_mem hc)

/-- The CLI shows every text as it was sent. -/
theorem history_content_bytes {m : OutboundMessage} {s : String} (hs : m.content = bytes s)
    (hlen : m.content.length < 2 ^ 31) :
    history_content (history_json base64_encode (stored m)) = s := by
  have hraw : string_property "content_b64" (history_json base64_encode (stored m)) =
      some (base64_encode m.content) := rfl
  have hcontent : string_property "content" (history_json base64_encode (stored m)) = none := rfl
  have hdecode := b64decode_encode hlen
  unfold history_content
  rw [hraw, hcontent]
  dsimp only
  by_cases hempty : base64_encode m.content = ""
  · rw [hempty] at hdecode ⊢
    have hnil : m.content = bytes "" :=
      (Option.some.inj hdecode).symm.trans (browser_texts.bytes_eq_utf8 "").symm
    rw [bytes_inj (hs.symm.trans hnil)]
    rfl
  · rw [if_neg hempty, if_neg hempty, hdecode]
    dsimp only
    rw [hs, decode_bytes_encode, String.ofList_toList]

/-! ## The law -/

/-- The message that is stored, sent to a session or left for one. -/
def carried : RouteEffect → Option OutboundMessage
  | .store_message m => some m
  | .post_message _ m => some m
  | .lpush _ m => some m
  | _ => none

def Carries (es : List RouteEffect) (m : OutboundMessage) : Prop := ∃ e ∈ es, carried e = some m

/-- What the frame of a text is routed to, by the two routines of a WebSocket session. -/
def Routed {st : database.Stores} (env : Env st) (user_id : UserId) (j : Json)
    (es : List RouteEffect) : Prop :=
  WebSocketSession.route_message env user_id j = some es ∨
    WebSocketSession.route_group_message env user_id j = some es

section Routes

variable {st : database.Stores} {env : Env st} {user_id : UserId} {j : Json}
  {es : List RouteEffect} {m : OutboundMessage}

theorem request_content {key : String} {conv_id : ConvId} {content : String}
    (h : WebSocketSession.request key j = some (some (conv_id, content))) :
    j.value_string "content" = some content := by
  unfold WebSocketSession.request at h
  rw [Option.bind_eq_some_iff] at h
  obtain ⟨id_str, _, h⟩ := h
  rw [Option.map_eq_some_iff] at h
  obtain ⟨text, htext, h⟩ := h
  split at h
  · cases h
  · rw [Option.map_eq_some_iff] at h
    obtain ⟨id, _, h⟩ := h
    obtain ⟨rfl, rfl⟩ := Prod.mk.inj h
    exact htext

theorem carries_append {fs : List RouteEffect} :
    Carries (es ++ fs) m ↔ Carries es m ∨ Carries fs m := by
  simp only [Carries, List.mem_append, or_and_right, exists_or]

theorem carries_queue_offline {member_id : UserId} {message : OutboundMessage}
    (h : Carries (queue_offline member_id message) m) : m = message := by
  simpa [Carries, queue_offline, carried, eq_comm] using h

theorem carries_activity {conv_id : ConvId} {is_group : Bool} {text : Bytes} :
    ¬ Carries [.update_conv_activity conv_id is_group text] m := by
  simp [Carries, carried]

theorem carries_store {message : OutboundMessage} (h : Carries [.store_message message] m) :
    m = message := by
  simpa [Carries, carried, eq_comm] using h

/-- Every message of a routing is a chat message with the text of the frame. -/
theorem routed_content (hroute : Routed env user_id j es) (hm : Carries es m) :
    m.msg_type = .CHAT ∧ ∃ s, j.value_string "content" = some s ∧ m.content = bytes s := by
  have hnone : ¬ Carries [] m := by simp [Carries]
  rcases hroute with hroute | hroute
  · unfold WebSocketSession.route_message at hroute
    rw [Option.map_eq_some_iff] at hroute
    obtain ⟨request, hrequest, rfl⟩ := hroute
    rcases request with _ | ⟨conv_id, content⟩
    · exact absurd hm hnone
    suffices h : ∃ recipient_id, m =
        direct_message user_id recipient_id conv_id env.msg_id env.ts_ms (bytes content) by
      obtain ⟨recipient_id, rfl⟩ := h
      exact ⟨rfl, content, request_content hrequest, rfl⟩
    dsimp only at hm
    split at hm
    · exact absurd hm hnone
    · rename_i recipient_id _
      refine ⟨recipient_id, ?_⟩
      rw [carries_append, carries_append] at hm
      rcases hm with (hm | hm) | hm
      · exact carries_store hm
      · split at hm
        · simpa [Carries, carried, eq_comm] using hm
        · exact carries_queue_offline hm
      · exact absurd hm carries_activity
  · unfold WebSocketSession.route_group_message at hroute
    rw [Option.map_eq_some_iff] at hroute
    obtain ⟨request, hrequest, rfl⟩ := hroute
    rcases request with _ | ⟨group_id, content⟩
    · exact absurd hm hnone
    suffices h : m = group_message user_id group_id env.msg_id env.ts_ms (bytes content) by
      subst h
      exact ⟨rfl, content, request_content hrequest, rfl⟩
    dsimp only at hm
    rw [carries_append, carries_append] at hm
    rcases hm with (hm | hm) | hm
    · exact carries_store hm
    · obtain ⟨e, he, hcarried⟩ := hm
      unfold fan_out at he
      obtain ⟨⟨member_id, n⟩, _, he⟩ := List.mem_flatMap.mp he
      dsimp only at he
      split at he
      · exact carries_store (m := m) ⟨_, List.mem_singleton_self _, by
          rwa [List.mem_singleton.mp he] at hcarried⟩
      · exact carries_queue_offline ⟨e, he, hcarried⟩
    · exact absurd hm carries_activity

end Routes

/-- Whatever is stored, delivered or left for a session of a frame of a browser: the socket and
the CLI's history show the text that was sent, and the browser's history shows the same entry
as the socket if and only if the text does not start with a byte order mark. -/
theorem the_history_shows_what_the_socket_shows_iff_no_mark_is_first {st : database.Stores}
    {env : Env st} {user_id : UserId} {j : Json} {es : List RouteEffect} {m : OutboundMessage}
    (parse : ParseFromArray) (self_user_id : Option String)
    (hroute : Routed env user_id j es) (hm : Carries es m) (hlen : m.content.length < 2 ^ 31) :
    ∃ s, j.value_string "content" = some s ∧
      live_message parse self_user_id m = some (entry self_user_id m s) ∧
      history_content (history_json base64_encode (stored m)) = s ∧
      ((normalize_history_message (history_json base64_encode (stored m)) (id_text m.conv_id)
          self_user_id).map (·.toNextMessage) = live_message parse self_user_id m ↔
        s.toList.head? ≠ some BYTE_ORDER_MARK) := by
  obtain ⟨htype, s, hs, hcontent⟩ := routed_content hroute hm
  have hother : m.msg_type ∉ without_content := by
    rw [htype]
    decide
  have hlive := live_message_eq parse self_user_id hother hcontent (by omega)
  refine ⟨s, hs, hlive, history_content_bytes hcontent hlen, ?_⟩
  rw [hlive, normalize_history_json self_user_id hlen, ← text_decode_bytes_iff, hcontent,
    Option.map_some, Option.some.injEq]
  constructor
  · intro h
    exact congrArg NextMessage.content h
  · intro h
    rw [h]

def greeting_frame : Json := .object [("content", .string "hi"), ("group_id", .string "200")]

def greeting : OutboundMessage := group_message 5 200 1 0 (bytes "hi")

theorem a_greeting_is_shown_alike :
    ∃ s, greeting_frame.value_string "content" = some s ∧
      live_message (fun _ => none) (some "5") greeting = some (entry (some "5") greeting s) ∧
      history_content (history_json base64_encode (stored greeting)) = s ∧
      ((normalize_history_message (history_json base64_encode (stored greeting))
          (id_text greeting.conv_id) (some "5")).map (·.toNextMessage) =
          live_message (fun _ => none) (some "5") greeting ↔
        s.toList.head? ≠ some BYTE_ORDER_MARK) := by
  have hroute : Routed (after database.stores.start) 5 greeting_frame
      [.store_message greeting, .update_conv_activity 200 true (preview (bytes "hi"))] := .inr rfl
  apply the_history_shows_what_the_socket_shows_iff_no_mark_is_first _ _ hroute
  · exact ⟨_, List.mem_cons_self, rfl⟩
  · decide +kernel

end loomic.shown_texts
