-- A message that a browser sends through the gateway: POST /api/chat/send checks the
-- recipient, and ChatGatewayConnection.sendMessage writes it into the header of a frame.
import Loomic.BigInts
import Loomic.ChatGateway

open chunks little_endian loomic.big_ints loomic.chat_gateway loomic.chat_protocol loomic.frame
  loomic.json loomic.receipt_guesses

namespace loomic.send_route

/-! ## The route -/

structure SendBody where
  access_token : Option String
  client_session_id : Option String
  recipient_id : Option String
  content : Option String

/-- A response with a status other than 200, or the call of `sendMessage`. -/
inductive Outcome
  | error (status : Nat) (message : String)
  | send (access_token client_session_id recipient_id content : String)
  deriving DecidableEq

def is_snowflake_like (value : String) : Bool := is_decimal value

/-- A text that is there and is not empty, without the white space around it. -/
def field (body : Option SendBody) (get : SendBody → Option String) : Option String :=
  (body.bind get).bind fun s => if trim s = "" then none else some (trim s)

/-- The body is null when it is no JSON. -/
def post (body : Option SendBody) : Outcome :=
  match field body (·.access_token), field body (·.client_session_id),
      field body (·.recipient_id), field body (·.content) with
  | some access_token, some client_session_id, some recipient_id, some content =>
    if is_snowflake_like recipient_id then
      .send access_token client_session_id recipient_id content
    else .error 400 "Recipient ids must be numeric Snowflake ids."
  | _, _, _, _ => .error 400 "Missing access token, session id, recipient id, or content."

/-! ## The frame -/

/-- The parameters of `encodeFrame`. `setBigUint64` takes an id modulo 2^64. -/
def frame_params (recipient_id content : String) : Option FrameParams :=
  (big_int recipient_id).map fun recipient_id =>
    { msg_type := WireMessageType.CHAT
      payload := bytes content
      recipient_id := UInt64.ofInt recipient_id }

/-- The bytes that `sendMessage` writes, if it does not throw. -/
def chat_frame (recipient_id content : String) : Option Bytes :=
  (frame_params recipient_id content).map encode_frame

/-- The gateway and the server read the number of the text as the recipient of the frame. -/
structure Carries (recipient_id : String) (frame : Bytes) : Prop where
  extracted : ∃ received, (extract_frames frame).1.head? = some received ∧
    received.msg_type = WireMessageType.CHAT ∧
    received.recipient_id = toString (decimal recipient_id)
  header : (FrameHeader.ofBytes frame).recipient_id.toNat = decimal recipient_id

/-- The frame is written, and carries the recipient. -/
def Delivers (recipient_id content : String) : Prop :=
  ∃ frame, chat_frame recipient_id content = some frame ∧ Carries recipient_id frame

/-! ## The law -/

section Frame

variable (params : FrameParams)

theorem header_encode_frame :
    (FrameHeader.ofBytes (encode_frame params)).recipient_id = params.recipient_id := by
  have hfield : (FrameHeader.ofBytes (encode_frame params)).recipient_id =
      UInt64.ofNat (numberOf (bytesOf 8 params.recipient_id.toNat)) := rfl
  rw [hfield, numberOf_uint64]

/-- The first frame that is extracted has the type and the recipient, whatever its length. -/
theorem extract_encode_frame :
    ∃ received, (extract_frames (encode_frame params)).1.head? = some received ∧
      received.msg_type = params.msg_type ∧
      received.recipient_id = toString params.recipient_id.toNat := by
  have hlength : (encode_frame params).length = 30 + params.payload.length := by
    simp [encode_frame]
    omega
  have hpayload : numberOf ((encode_frame params).take 4) =
      (UInt32.ofNat params.payload.length).toNat := by
    have hfield : (encode_frame params).take 4 =
        bytesOf 4 (UInt32.ofNat params.payload.length).toNat := rfl
    rw [hfield, numberOf_bytesOf]
    have := (UInt32.ofNat params.payload.length).toNat_lt
    omega
  have hfits : (UInt32.ofNat params.payload.length).toNat ≤ params.payload.length := by
    rw [UInt32.toNat_ofNat']
    exact Nat.mod_le _ _
  have hrecipient : ((encode_frame params).drop 22).take 8 =
      bytesOf 8 params.recipient_id.toNat := rfl
  have hnext : ∃ received rest, frame_splitter.next (encode_frame params) = some (received, rest) ∧
      received.msg_type = params.msg_type ∧
      received.recipient_id = toString params.recipient_id.toNat := by
    rw [frame_splitter_next]
    unfold next_frame FRAME_HEADER_BYTES
    rw [if_neg (by omega)]
    dsimp only
    rw [hpayload, if_neg (by omega)]
    exact ⟨_, _, rfl, rfl, by rw [hrecipient, id_text_uint64]⟩
  obtain ⟨received, rest, hnext, htype, hid⟩ := hnext
  refine ⟨received, ?_, htype, hid⟩
  unfold extract_frames
  rw [extract_of_some hnext]
  rfl

end Frame

theorem toNat_ofInt (n : Nat) : (UInt64.ofInt (n : Int)).toNat = n % 2 ^ 64 := by
  unfold UInt64.ofInt
  rw [UInt64.toNat_ofNat']
  omega

/-- What the route accepts is digits. -/
theorem decimal_of_send {body : Option SendBody}
    {access_token client_session_id recipient_id content : String}
    (h : post body = .send access_token client_session_id recipient_id content) :
    is_decimal recipient_id = true := by
  unfold post at h
  split at h
  · split at h
    · rename_i hdigits
      cases h
      exact hdigits
    · cases h
  · cases h

theorem frame_params_digits {recipient_id : String} (h : is_decimal recipient_id = true)
    (content : String) :
    frame_params recipient_id content = some
      { msg_type := WireMessageType.CHAT
        payload := bytes content
        recipient_id := UInt64.ofInt (decimal recipient_id) } := by
  unfold frame_params
  rw [big_int_digits h, Option.map_some]

/-- The recipient of the frame is the number of the text modulo 2^64. -/
theorem recipient_of_frame {recipient_id content : String} {frame : Bytes}
    (h : is_decimal recipient_id = true) (hframe : chat_frame recipient_id content = some frame) :
    (FrameHeader.ofBytes frame).recipient_id.toNat = decimal recipient_id % 2 ^ 64 := by
  unfold chat_frame at hframe
  rw [frame_params_digits h, Option.map_some] at hframe
  obtain rfl := Option.some.inj hframe
  rw [header_encode_frame]
  exact toNat_ofInt _

/-- A recipient that the route accepts is the recipient of the frame exactly when its number has
64 bits. -/
theorem the_recipient_is_carried_iff_it_has_64_bits {body : Option SendBody}
    {access_token client_session_id recipient_id content : String}
    (h : post body = .send access_token client_session_id recipient_id content) :
    Delivers recipient_id content ↔ decimal recipient_id < 2 ^ 64 := by
  have hdigits := decimal_of_send h
  constructor
  · rintro ⟨frame, hframe, hcarries⟩
    have hheader := recipient_of_frame hdigits hframe
    rw [hcarries.header] at hheader
    omega
  · intro hlt
    have hwrap := toNat_ofInt (decimal recipient_id)
    rw [Nat.mod_eq_of_lt hlt] at hwrap
    obtain ⟨received, hfirst, htype, hid⟩ := extract_encode_frame
      { msg_type := WireMessageType.CHAT
        payload := bytes content
        recipient_id := UInt64.ofInt (decimal recipient_id) }
    have hframe : chat_frame recipient_id content = some (encode_frame
        { msg_type := WireMessageType.CHAT
          payload := bytes content
          recipient_id := UInt64.ofInt (decimal recipient_id) }) := by
      unfold chat_frame
      rw [frame_params_digits hdigits, Option.map_some]
    refine ⟨_, hframe, ⟨received, hfirst, htype, by rw [hid, hwrap]⟩, ?_⟩
    rw [recipient_of_frame hdigits hframe, Nat.mod_eq_of_lt hlt]

section Examples

/-- The body of a request with the recipient. -/
def body_to (recipient_id : String) : Option SendBody :=
  some
    { access_token := some "token"
      client_session_id := some "session"
      recipient_id := some recipient_id
      content := some "hello" }

theorem seven_is_carried : Delivers "7" "hello" :=
  (the_recipient_is_carried_iff_it_has_64_bits (show post (body_to "7") =
    .send "token" "session" "7" "hello" by decide)).mpr (by decide)

/-- 2^64 + 5 is accepted, and the message goes to the user 5. -/
theorem a_large_recipient_is_another_one :
    post (body_to "18446744073709551621") =
        .send "token" "session" "18446744073709551621" "hello" ∧
      ¬ Delivers "18446744073709551621" "hello" := by
  refine ⟨by decide, ?_⟩
  rintro ⟨frame, hframe, hcarries⟩
  have hheader := recipient_of_frame (by decide) hframe
  rw [hcarries.header] at hheader
  exact absurd hheader (by decide)

end Examples

end loomic.send_route
