-- The frames of the TCP protocol (frame.hpp): a header of 30 bytes, then
-- `payload_len` bytes. Sessions hand each other messages, which carry the
-- fields of both.
import Loomic.Lib.LittleEndian

open little_endian

namespace loomic.frame

abbrev Bytes := List UInt8

/-- The ids are 64-bit numbers. The tables of Postgres and Cassandra hold them as `BIGINT`,
through casts that lose nothing. -/
abbrev UserId := UInt64

abbrev ConvId := UInt64

abbrev MsgId := UInt64

-- What holds of all ids of a list is decided along the list, not for all 64-bit numbers.
instance decidable_ids (ids : List UInt64) (p : UInt64 → Prop) [DecidablePred p] :
    Decidable (∀ id ∈ ids, p id) :=
  List.decidableBAll p ids

instance decidable_id? (id? : Option UInt64) (p : UInt64 → Prop) [DecidablePred p] :
    Decidable (∀ id ∈ id?, p id) :=
  Option.decidableForallMem id?

/-- The scoped enum has the values of its byte, named or not. -/
structure MsgType where
  byte : UInt8
  deriving DecidableEq, Repr

namespace MsgType

def CHAT : MsgType := ⟨0x01⟩
def AUTH : MsgType := ⟨0x02⟩
def PING : MsgType := ⟨0x03⟩
def PONG : MsgType := ⟨0x04⟩
def ERROR : MsgType := ⟨0x05⟩
def DELETE_NOTIFY : MsgType := ⟨0x06⟩
def DELIVERED : MsgType := ⟨0x07⟩
def READ : MsgType := ⟨0x08⟩
def TYPING : MsgType := ⟨0x09⟩

end MsgType

/-- Flags bit 0: `recipient_id` is a group id. -/
def kFlagIsGroup : UInt8 := 0x01

structure FrameHeader where
  payload_len : UInt32 := 0
  msg_type : UInt8 := 0
  flags : UInt8 := 0
  msg_id : MsgId := 0
  sender_id : UserId := 0
  recipient_id : UserId := 0
  deriving DecidableEq, Repr

def FrameHeader.type (hdr : FrameHeader) : MsgType := ⟨hdr.msg_type⟩

def FrameHeader.is_group (hdr : FrameHeader) : Bool := hdr.flags &&& kFlagIsGroup != 0

structure OutboundMessage where
  conv_id : ConvId := 0
  msg_id : MsgId := 0
  sender_id : UserId := 0
  recipient_id : UserId := 0
  timestamp_ms : Int64 := 0
  msg_type : MsgType := .CHAT
  flags : UInt8 := 0
  content : Bytes := []
  deriving DecidableEq, Repr

/-! ## The header on the wire -/

/-- The packed struct: 30 bytes, little-endian. -/
def FrameHeader.bytes (hdr : FrameHeader) : Bytes :=
  bytesOf 4 hdr.payload_len.toNat ++ hdr.msg_type :: hdr.flags :: (bytesOf 8 hdr.msg_id.toNat ++
    (bytesOf 8 hdr.sender_id.toNat ++ bytesOf 8 hdr.recipient_id.toNat))

/-- The struct that `memcpy` fills from the first 30 bytes. -/
def FrameHeader.ofBytes (buf : Bytes) : FrameHeader where
  payload_len := UInt32.ofNat (numberOf (buf.take 4))
  msg_type := buf.getD 4 0
  flags := buf.getD 5 0
  msg_id := UInt64.ofNat (numberOf ((buf.drop 6).take 8))
  sender_id := UInt64.ofNat (numberOf ((buf.drop 14).take 8))
  recipient_id := UInt64.ofNat (numberOf ((buf.drop 22).take 8))

@[simp] theorem length_header_bytes (hdr : FrameHeader) : hdr.bytes.length = 30 := by
  simp [FrameHeader.bytes]

theorem numberOf_uint64 (x : UInt64) : UInt64.ofNat (numberOf (bytesOf 8 x.toNat)) = x := by
  rw [numberOf_bytesOf _ _ (by have := x.toNat_lt; omega), UInt64.ofNat_toNat]

theorem numberOf_uint32 (x : UInt32) : UInt32.ofNat (numberOf (bytesOf 4 x.toNat)) = x := by
  rw [numberOf_bytesOf _ _ (by have := x.toNat_lt; omega), UInt32.ofNat_toNat]

/-- A header is read back from its bytes, whatever follows them. -/
theorem ofBytes_header_bytes (hdr : FrameHeader) (rest : Bytes) :
    FrameHeader.ofBytes (hdr.bytes ++ rest) = hdr := by
  have hfields : FrameHeader.ofBytes (hdr.bytes ++ rest) =
      { payload_len := UInt32.ofNat (numberOf (bytesOf 4 hdr.payload_len.toNat))
        msg_type := hdr.msg_type
        flags := hdr.flags
        msg_id := UInt64.ofNat (numberOf (bytesOf 8 hdr.msg_id.toNat))
        sender_id := UInt64.ofNat (numberOf (bytesOf 8 hdr.sender_id.toNat))
        recipient_id := UInt64.ofNat (numberOf (bytesOf 8 hdr.recipient_id.toNat)) } := rfl
  rw [hfields, numberOf_uint32, numberOf_uint64, numberOf_uint64, numberOf_uint64]

/-! ## Whole frames -/

/-- A frame: a header, then exactly `payload_len` bytes. -/
structure Frame where
  hdr : FrameHeader
  payload : Bytes
  length_payload : payload.length = hdr.payload_len.toNat

theorem length_no_payload : ([] : Bytes).length = (0 : UInt32).toNat := rfl

def Frame.bytes (f : Frame) : Bytes := f.hdr.bytes ++ f.payload

/-- The frames as they follow each other on the wire. -/
def stream (frames : List Frame) : Bytes := frames.flatMap Frame.bytes

@[simp] theorem length_frame_bytes (f : Frame) :
    f.bytes.length = 30 + f.hdr.payload_len.toNat := by
  simp [Frame.bytes, f.length_payload]

@[simp] theorem stream_nil : stream [] = [] := rfl

@[simp] theorem stream_cons (f : Frame) (fs : List Frame) :
    stream (f :: fs) = f.bytes ++ stream fs := rfl

@[simp] theorem stream_append (fs gs : List Frame) :
    stream (fs ++ gs) = stream fs ++ stream gs := by
  simp [stream]

/-! ## The frames that a session writes -/

/-- The protobuf encoding of a message. Protobuf serializes nothing of two gibibytes or more. -/
abbrev Proto := OutboundMessage → { b : Bytes // b.length < 2 ^ 31 }

def OutboundMessage.header (message : OutboundMessage) (payload_len : UInt32) : FrameHeader where
  payload_len := payload_len
  msg_type := message.msg_type.byte
  flags := message.flags
  msg_id := message.msg_id
  sender_id := message.sender_id
  recipient_id := message.recipient_id

def build_chat_frame (proto : Proto) (message : OutboundMessage) : Frame where
  hdr := message.header (UInt32.ofNat (proto message).val.length)
  payload := (proto message).val
  length_payload := by
    have h := (proto message).property
    simp only [OutboundMessage.header, UInt32.toNat_ofNat']
    omega

/-- The frame that `Session::enqueue` appends: receipts and typing indicators have no payload. -/
def wire_frame (proto : Proto) (message : OutboundMessage) : Frame :=
  if message.msg_type = .DELIVERED ∨ message.msg_type = .READ ∨ message.msg_type = .TYPING then
    { hdr := message.header 0, payload := [], length_payload := length_no_payload }
  else build_chat_frame proto message

end loomic.frame
