-- The two `run()` coroutines (Session.cpp, WebSocketSession.cpp), cut at their
-- `co_await`s. A resumption takes what the awaited operation gave, and runs to
-- the next `co_await`; nothing else runs in between.
import Loomic.Json

open loomic.frame loomic.json

namespace loomic.session_run

/-- What a segment does, in order. The operation that the coroutine waits for comes last. The
deliveries that come from the offline queue are of type `α`; `run()` only hands them on. -/
inductive Effect (α : Type)
  | registry_insert (user_id : UserId)
  | registry_remove (user_id : UserId)
  | active_sessions_increment
  | active_sessions_decrement
  | active_connections_increment
  | active_connections_decrement
  | set_presence (user_id : UserId)
  | refresh_presence (user_id : UserId)
  | del_presence (user_id : UserId)
  | set_last_seen (user_id : UserId) (ts_ms : Int64)
  | update_last_seen_at (user_id : UserId) (ts_ms : Int64)
  | spawn_heartbeat_loop
  | reset_heartbeat
  | cancel_heartbeat
  | read_frame_header
  | read_frame_payload (len : UInt32)
  | write_frame (frame : Frame)
  | read_text
  | write_text (j : Json)
  | push_text (j : Json)
  | lrange_and_del (user_id : UserId)
  | enqueue (frame : α)
  | smembers_group (group_id : ConvId)
  | load_group_members_from_pg (group_id : ConvId)
  | relay (target_id : UserId) (message : OutboundMessage)
  | route_message (hdr : FrameHeader) (payload : Bytes)
  | route_text (type : String) (j : Json)

/-- A coroutine: the `co_await` at which it waits, and the member `user_id_`. -/
structure Run (Await : Type) where
  await : Await
  user_id : UserId
  deriving DecidableEq

variable {α : Type}

abbrev Segment (α Await : Type) := Run Await × List (Effect α)

def Run.to {Await : Type} (r : Run Await) (await : Await) (effects : List (Effect α)) :
    Segment α Await := ({ r with await := await }, effects)

/-- The block after the `catch` clauses, which is the same in both. -/
def Run.cleanup {Await : Type} (r : Run Await) (del_presence done : Await) : Segment α Await :=
  if r.user_id = 0 then r.to done [.cancel_heartbeat]
  else r.to del_presence [.cancel_heartbeat, .active_sessions_decrement,
    .active_connections_decrement, .registry_remove r.user_id, .del_presence r.user_id]

/-! ## Session::run -/

namespace Session

/-- The `co_await` at which the coroutine waits. -/
inductive Await
  | auth_header
  | auth_payload (len : UInt32)
  | auth_error
  | set_presence
  | ack
  | flush_offline_queue
  | header
  | refresh_presence
  | pong
  | chat_payload (hdr : FrameHeader)
  | route_message
  | rate_error
  | smembers_group (hdr : FrameHeader)
  | load_group_members_from_pg (hdr : FrameHeader)
  | skip_payload (len : UInt32)
  | del_presence
  | set_last_seen
  | done
  deriving DecidableEq

/-- What an awaited operation gives. With a frame comes the answer of the rate limiter, in
case the segment asks it, and with a reply the reading of the system clock. -/
inductive Event (α : Type)
  | header (hdr : FrameHeader) (allowed : Bool)
  | payload (buf : Bytes) (allowed : Bool)
  | written
  | replied (now_ms : Int64)
  | frames (batch : List α)
  | members (ids : List UserId)
  | returned
  | raised

def start : Run Await := { await := .auth_header, user_id := 0 }

variable (r : Run Await)

/-- A `co_return` in the `try` block: the block after it is not reached. -/
def co_return : Segment α Await := r.to .done []

/-- An exception in the `try` block. -/
def raise : Segment α Await := r.cleanup .del_presence .done

def kMaxAuthPayload : UInt32 := 4096

/-- `1u << 20`. -/
def kMaxPayload : UInt32 := 1048576

/-- A CHAT header that announces more than a mebibyte. -/
def Oversized (hdr : FrameHeader) : Prop := hdr.type = .CHAT ∧ kMaxPayload < hdr.payload_len

def pong_frame : Frame :=
  { hdr := { msg_type := MsgType.PONG.byte }, payload := [], length_payload := length_no_payload }

def error_frame : Frame :=
  { hdr := { msg_type := MsgType.ERROR.byte }, payload := [], length_payload := length_no_payload }

def read_header (effects : List (Effect α)) : Segment α Await :=
  r.to .header (effects ++ [.read_frame_header])

/-- What follows the payload of the AUTH frame. -/
def authenticate (verify : Bytes → Option UserId) (token : Bytes) : Segment α Await :=
  match verify token with
  | none => r.to .auth_error [.write_frame error_frame]
  | some uid => { r with user_id := uid }.to .set_presence
      [.registry_insert uid, .active_sessions_increment, .set_presence uid]

/-- What follows the payload of a CHAT frame. -/
def chat (hdr : FrameHeader) (payload : Bytes) (allowed : Bool) : Segment α Await :=
  if allowed then r.to .route_message [.route_message hdr payload]
  else r.to .rate_error [.write_frame error_frame]

def typing_message (user_id target_id : UserId) (is_group : Bool) : OutboundMessage :=
  { conv_id := target_id, sender_id := user_id, recipient_id := target_id, msg_type := .TYPING
    flags := if is_group then kFlagIsGroup else 0 }

/-- The relay of a typing indicator to the members of a group. -/
def typing_fan_out (hdr : FrameHeader) (members : List UserId) : Segment α Await :=
  read_header r ((members.filter (· ≠ r.user_id)).map fun member_id =>
    .relay member_id (typing_message r.user_id hdr.recipient_id true))

/-- The dispatch on the type of a header. A payload of length 0 is read without a wait. -/
def dispatch (hdr : FrameHeader) (allowed : Bool) : Segment α Await :=
  if hdr.type = .PING then
    r.to .refresh_presence [.reset_heartbeat, .refresh_presence r.user_id]
  else if hdr.type = .CHAT then
    if kMaxPayload < hdr.payload_len then co_return r
    else if hdr.payload_len = 0 then chat r hdr [] allowed
    else r.to (.chat_payload hdr) [.read_frame_payload hdr.payload_len]
  else if hdr.type = .TYPING then
    if hdr.is_group then r.to (.smembers_group hdr) [.smembers_group hdr.recipient_id]
    else read_header r [.relay hdr.recipient_id
      (typing_message r.user_id hdr.recipient_id false)]
  else if 0 < hdr.payload_len ∧ hdr.payload_len ≤ kMaxPayload then
    r.to (.skip_payload hdr.payload_len) [.read_frame_payload hdr.payload_len]
  else read_header r []

/-- The operations inside the `try` block. -/
def Await.in_try : Await → Bool
  | .del_presence | .set_last_seen | .done => false
  | _ => true

/-- One resumption. An operation of the `try` block may throw; those after it do not. -/
def resume (verify : Bytes → Option UserId) (ev : Event α) : Option (Segment α Await) :=
  match r.await, ev with
  | .auth_header, .header hdr _ =>
    if hdr.type ≠ .AUTH ∨ kMaxAuthPayload < hdr.payload_len then some (co_return r)
    else if hdr.payload_len = 0 then some (authenticate r verify [])
    else some (r.to (.auth_payload hdr.payload_len) [.read_frame_payload hdr.payload_len])
  | .auth_payload len, .payload buf _ =>
    if buf.length = len.toNat then some (authenticate r verify buf) else none
  | .auth_error, .written => some (co_return r)
  | .set_presence, .replied _ => some (r.to .ack [.write_frame pong_frame])
  | .ack, .written => some (r.to .flush_offline_queue [.lrange_and_del r.user_id])
  | .flush_offline_queue, .frames batch =>
    some (read_header r (batch.map .enqueue ++ [.spawn_heartbeat_loop]))
  | .header, .header hdr allowed => some (dispatch r hdr allowed)
  | .refresh_presence, .replied _ => some (r.to .pong [.write_frame pong_frame])
  | .pong, .written => some (read_header r [])
  | .chat_payload hdr, .payload buf allowed =>
    if buf.length = hdr.payload_len.toNat then some (chat r hdr buf allowed) else none
  | .route_message, .returned => some (read_header r [])
  | .rate_error, .written => some (read_header r [])
  | .smembers_group hdr, .members ids =>
    if ids = [] then
      some (r.to (.load_group_members_from_pg hdr) [.load_group_members_from_pg hdr.recipient_id])
    else some (typing_fan_out r hdr ids)
  | .load_group_members_from_pg hdr, .members ids => some (typing_fan_out r hdr ids)
  | .skip_payload len, .payload buf _ =>
    if buf.length = len.toNat then some (read_header r []) else none
  | .del_presence, .replied now_ms =>
    some (r.to .set_last_seen [.set_last_seen r.user_id now_ms])
  | .set_last_seen, .replied now_ms =>
    some (r.to .done [.update_last_seen_at r.user_id now_ms])
  | await, .raised => if await.in_try then some (raise r) else none
  | _, _ => none

end Session

/-! ## WebSocketSession::run -/

namespace WebSocketSession

inductive Await
  | accept
  | auth_text
  | auth_error
  | set_presence
  | flush_offline_queue
  | text
  | route
  | del_presence
  | set_last_seen
  | done
  deriving DecidableEq

/-- What an awaited operation gives; a text frame comes with its parse, if it has one. -/
inductive Event (α : Type)
  | accepted
  | text (j : Option Json)
  | binary
  | written
  | replied (now_ms : Int64)
  | frames (batch : List α)
  | returned
  | raised

def start : Run Await := { await := .accept, user_id := 0 }

variable (r : Run Await)

/-- A `co_return` in the `try` block: the block after it is not reached. -/
def co_return : Segment α Await := r.to .done []

/-- An exception in the `try` block. -/
def raise : Segment α Await := r.cleanup .del_presence .done

/-- Whether `enqueue` can dump the message: nlohmann refuses text that is not UTF-8, and only
the text of a chat message is dumped. -/
def dumps (message : OutboundMessage) : Bool :=
  message.msg_type ∈ [MsgType.DELETE_NOTIFY, .DELIVERED, .READ, .TYPING] ∨
    (ByteArray.mk message.content.toArray).validateUTF8

def auth_error_text : Json := .object [("msg", .string "invalid token"), ("type", .string "error")]

def pong_text : Json := .object [("type", .string "pong")]

/-- What follows the first text frame, which must be an `auth` object with a token. -/
def authenticate (verify : Bytes → Option UserId) (auth_j : Json) : Segment α Await :=
  match auth_j.value_string "type" with
  | none => raise r
  | some type =>
    if type ≠ "auth" then co_return r
    else match auth_j.value_string "token" with
      | none => raise r
      | some token => match verify (bytes token) with
        | none => r.to .auth_error [.write_text auth_error_text]
        | some uid => { r with user_id := uid }.to .set_presence
            [.registry_insert uid, .active_sessions_increment, .active_connections_increment,
              .set_presence uid]

def read_text (effects : List (Effect α)) : Segment α Await :=
  r.to .text (effects ++ [.read_text])

/-- What follows the reply to the flush: the first delivery that `enqueue` cannot dump as JSON
ends it with an exception. -/
def flush (dumps : α → Bool) (batch : List α) : Segment α Await :=
  let enqueued := (batch.takeWhile dumps).map Effect.enqueue
  if batch.all dumps then read_text r (enqueued ++ [.spawn_heartbeat_loop])
  else
    let raised : Segment α Await := raise r
    (raised.1, enqueued ++ raised.2)

/-- The types whose frames a coroutine of their own serves. -/
def routed_types : List String := ["chat", "group_chat", "typing", "read"]

/-- One turn of `read_loop` on a text frame that parses. -/
def dispatch (j : Json) : Segment α Await :=
  match j.value_string "type" with
  | none => raise r
  | some type =>
    if type = "ping" then read_text r [.reset_heartbeat, .push_text pong_text]
    else if type ∈ routed_types then r.to .route [.route_text type j]
    else read_text r []

def Await.in_try : Await → Bool
  | .del_presence | .set_last_seen | .done => false
  | _ => true

/-- One resumption. An operation of the `try` block may throw; those after it do not. -/
def resume (verify : Bytes → Option UserId) (dumps : α → Bool) (ev : Event α) :
    Option (Segment α Await) :=
  match r.await, ev with
  | .accept, .accepted => some (r.to .auth_text [.read_text])
  | .auth_text, .text none => some (co_return r)
  | .auth_text, .text (some auth_j) => some (authenticate r verify auth_j)
  | .auth_error, .written => some (co_return r)
  | .set_presence, .replied _ => some (r.to .flush_offline_queue [.lrange_and_del r.user_id])
  | .flush_offline_queue, .frames batch => some (flush r dumps batch)
  | .text, .binary => some (read_text r [])
  | .text, .text none => some (read_text r [])
  | .text, .text (some j) => some (dispatch r j)
  | .route, .returned => some (read_text r [])
  | .del_presence, .replied now_ms =>
    some (r.to .set_last_seen [.set_last_seen r.user_id now_ms])
  | .set_last_seen, .replied now_ms =>
    some (r.to .done [.update_last_seen_at r.user_id now_ms])
  | await, .raised => if await.in_try then some (raise r) else none
  | _, _ => none

end WebSocketSession

end loomic.session_run
