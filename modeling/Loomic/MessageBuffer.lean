-- The messages that the gateway keeps for a browser that subscribes later
-- (ChatGatewayConnection.pushMessage and handleFrame).
import Loomic.ChatFrames
import Loomic.ChatGateway
import Loomic.Lib.Recent

open loomic.chat_frames loomic.chat_gateway loomic.chat_protocol recent

namespace loomic.message_buffer

def MAX_BUFFERED_MESSAGES : Nat := 200

structure MessageBuffer where
  buffered_messages : List ChatRecord := []
  last_message_at : Option Nat := none

/-- The first ones are spliced off when there are too many. -/
def MessageBuffer.push_message (buffer : MessageBuffer) (message : ChatRecord) : MessageBuffer :=
  let next_messages := buffer.buffered_messages.filter (·.id ≠ message.id) ++ [message]
  { buffered_messages :=
      if next_messages.length > MAX_BUFFERED_MESSAGES then
        next_messages.drop (next_messages.length - MAX_BUFFERED_MESSAGES)
      else next_messages
    last_message_at := some message.timestamp_ms }

/-- A frame, the clock, and `snapshot.selfUserId`, which is null until there is a token. -/
structure Received where
  frame : ParsedWireFrame
  now : Nat
  self_user_id : Option String

/-- The message of a CHAT frame. -/
def Received.message (received : Received) : Option ChatRecord :=
  if received.frame.msg_type ≠ WireMessageType.CHAT then none
  else decode_chat_message received.frame.payload
    (if some received.frame.sender_id = received.self_user_id then .outgoing else .incoming)
    received.now

/-- What a frame does to the buffer. -/
def MessageBuffer.handle_frame (buffer : MessageBuffer) (received : Received) : MessageBuffer :=
  match received.message with
  | none => buffer
  | some message => buffer.push_message message

/-- The buffer after the messages, one after the other. -/
def pushed (messages : List ChatRecord) : MessageBuffer :=
  messages.foldl MessageBuffer.push_message {}

/-! ## The recent history -/

theorem push_message_eq (buffer : MessageBuffer) (message : ChatRecord) :
    (buffer.push_message message).buffered_messages =
      push ChatRecord.id MAX_BUFFERED_MESSAGES buffer.buffered_messages message := by
  unfold MessageBuffer.push_message push List.rtake
  dsimp only
  split
  · rfl
  · rename_i hfits
    rw [Nat.sub_eq_zero_of_le (by omega), List.drop_zero]

theorem pushed_eq (messages : List ChatRecord) :
    (pushed messages).buffered_messages =
      (latest ChatRecord.id messages).rtake MAX_BUFFERED_MESSAGES := by
  have hfold : ∀ buffer : MessageBuffer,
      (messages.foldl MessageBuffer.push_message buffer).buffered_messages =
        messages.foldl (push ChatRecord.id MAX_BUFFERED_MESSAGES) buffer.buffered_messages := by
    induction messages with
    | nil => exact fun buffer => rfl
    | cons message messages ih =>
      intro buffer
      rw [List.foldl_cons, List.foldl_cons, ih, push_message_eq]
  exact (hfold {}).trans (foldl_push MAX_BUFFERED_MESSAGES messages)

/-- How many ids have been pushed. -/
def distinct_ids (messages : List ChatRecord) : Nat := (messages.map (·.id)).dedup.length

/-- The buffer is the end of the list that has the last message of each id. -/
theorem the_buffer_is_the_recent_history (messages : List ChatRecord) :
    (pushed messages).buffered_messages =
        (latest ChatRecord.id messages).rtake (min 200 (distinct_ids messages)) ∧
      ((pushed messages).buffered_messages.map (·.id)).Nodup ∧
      (pushed messages).buffered_messages.length = min 200 (distinct_ids messages) ∧
      (pushed messages).buffered_messages.getLast? = messages.getLast? := by
  have hlength : (latest ChatRecord.id messages).length = distinct_ids messages := by
    unfold distinct_ids
    rw [← keys_latest, List.length_map]
  rw [pushed_eq]
  unfold MAX_BUFFERED_MESSAGES List.rtake
  refine ⟨?_, ?_, ?_, ?_⟩
  · have hsame : distinct_ids messages - 200 =
        distinct_ids messages - min 200 (distinct_ids messages) := by omega
    rw [hlength, hsame]
  · exact (nodup_latest messages).sublist ((List.drop_sublist _ _).map _)
  · rw [List.length_drop, hlength]
    omega
  · rw [List.getLast?_drop, getLast?_latest, hlength]
    split
    · have hnone : (latest ChatRecord.id messages).length = 0 := by omega
      rw [← getLast?_latest ChatRecord.id, List.length_eq_zero_iff.mp hnone]
      rfl
    · rfl

/-- Frames push what they decode to, so they leave such a history, too. -/
theorem frames_push_what_they_decode (received : List Received) :
    received.foldl MessageBuffer.handle_frame {} =
      pushed (received.filterMap Received.message) := by
  unfold pushed
  rw [List.foldl_filterMap]
  congr 1
  funext buffer frame
  unfold MessageBuffer.handle_frame
  cases frame.message <;> rfl

end loomic.message_buffer
