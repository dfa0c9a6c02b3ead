-- The browser gateway's side of the TCP protocol (chat-protocol.ts): frames
-- are written, and read from a stream that arrives in chunks.
import Loomic.Frame
import Loomic.Lib.Chunks

open chunks little_endian loomic.frame

namespace loomic.chat_protocol

/-! ## Frames -/

def FRAME_HEADER_BYTES : Nat := 30

/-- The ids are decimal texts here, since a number of JavaScript is too small for them. -/
structure ParsedWireFrame where
  msg_type : UInt8
  msg_id : String
  sender_id : String
  recipient_id : String
  payload : Bytes
  deriving DecidableEq

/-- The parameters of `encodeFrame`. An id that is left out is zero. -/
structure FrameParams where
  msg_type : UInt8
  payload : Bytes := []
  msg_id : UInt64 := 0
  sender_id : UInt64 := 0
  recipient_id : UInt64 := 0

/-- `setUint32` takes the length modulo 2^32. The flags are zero. -/
def encode_frame (params : FrameParams) : Bytes :=
  bytesOf 4 (UInt32.ofNat params.payload.length).toNat ++ params.msg_type :: 0 ::
    (bytesOf 8 params.msg_id.toNat ++ (bytesOf 8 params.sender_id.toNat ++
      (bytesOf 8 params.recipient_id.toNat ++ params.payload)))

def id_text (field : Bytes) : String := toString (numberOf field)

/-- One turn of the loop of `extractFrames`: a frame, and the buffer after it. The loop ends
when the header or the payload is not there as a whole. -/
def next_frame (buffer : Bytes) : Option (ParsedWireFrame × Bytes) :=
  if buffer.length < FRAME_HEADER_BYTES then none
  else
    let payload_length := numberOf (buffer.take 4)
    let frame_length := FRAME_HEADER_BYTES + payload_length
    if buffer.length < frame_length then none
    else some
      ({ msg_type := buffer.getD 4 0
         msg_id := id_text ((buffer.drop 6).take 8)
         sender_id := id_text ((buffer.drop 14).take 8)
         recipient_id := id_text ((buffer.drop 22).take 8)
         payload := (buffer.take frame_length).drop FRAME_HEADER_BYTES },
        buffer.drop frame_length)

theorem next_frame_shortens {buffer rest : Bytes} {frame : ParsedWireFrame}
    (h : next_frame buffer = some (frame, rest)) : rest.length < buffer.length := by
  unfold next_frame FRAME_HEADER_BYTES at h
  split at h
  · cases h
  · dsimp only at h
    split at h
    · cases h
    · obtain ⟨rfl, rfl⟩ := Prod.mk.inj (Option.some.inj h)
      rw [List.length_drop]
      omega

/-- What comes later does not change a frame that is there. -/
theorem next_frame_stable {buffer rest : Bytes} {frame : ParsedWireFrame} (more : Bytes)
    (h : next_frame buffer = some (frame, rest)) :
    next_frame (buffer ++ more) = some (frame, rest ++ more) := by
  unfold next_frame FRAME_HEADER_BYTES at h ⊢
  split at h
  · cases h
  · rename_i hheader
    dsimp only at h
    split at h
    · cases h
    · rename_i hpayload
      obtain ⟨rfl, rfl⟩ := Prod.mk.inj (Option.some.inj h)
      have htake : ∀ n ≤ buffer.length, (buffer ++ more).take n = buffer.take n := by
        intro n hn
        exact List.take_append_of_le_length hn
      have hfield : ∀ n m, n + m ≤ buffer.length →
          ((buffer ++ more).drop n).take m = (buffer.drop n).take m := by
        intro n m hn
        rw [List.drop_append_of_le_length (by omega),
          List.take_append_of_le_length (by rw [List.length_drop]; omega)]
      have hbyte : (buffer ++ more).getD 4 0 = buffer.getD 4 0 := by
        rw [List.getD_eq_getElem?_getD, List.getD_eq_getElem?_getD,
          List.getElem?_append_left (by omega)]
      rw [List.length_append, if_neg (by omega)]
      dsimp only
      rw [htake 4 (by omega), if_neg (by omega), hbyte, hfield 6 8 (by omega),
        hfield 14 8 (by omega), hfield 22 8 (by omega), htake _ (by omega),
        List.drop_append_of_le_length (by omega)]

/-- The loop of `extractFrames` as a splitter of the stream. -/
def frame_splitter : Splitter UInt8 ParsedWireFrame where
  next := next_frame
  shortens := next_frame_shortens
  stable := next_frame_stable

theorem frame_splitter_next : frame_splitter.next = next_frame := rfl

/-- The whole frames of the buffer, and the remainder. -/
def extract_frames (buffer : Bytes) : List ParsedWireFrame × Bytes := frame_splitter.extract buffer

def append_frame_chunk (current chunk : Bytes) : Bytes := current ++ chunk

/-- `ChatGatewayConnection.handleIncomingBytes`: the frames that it handles, and its buffer. -/
def handle_incoming_bytes (stream_buffer chunk : Bytes) : List ParsedWireFrame × Bytes :=
  extract_frames (append_frame_chunk stream_buffer chunk)

/-- The chunks one by one: the frames handled so far, and the buffer. -/
def receive (chunks : List Bytes) : List ParsedWireFrame × Bytes :=
  chunks.foldl (fun state chunk =>
    let (frames, stream_buffer) := handle_incoming_bytes state.2 chunk
    (state.1 ++ frames, stream_buffer)) ([], [])

/-! ## A frame that is there -/

/-- The frame that the parameters make. -/
def FrameParams.frame (params : FrameParams) (h : params.payload.length < 2 ^ 32) : Frame where
  hdr :=
    { payload_len := UInt32.ofNat params.payload.length
      msg_type := params.msg_type
      flags := 0
      msg_id := params.msg_id
      sender_id := params.sender_id
      recipient_id := params.recipient_id }
  payload := params.payload
  length_payload := by
    rw [UInt32.toNat_ofNat']
    omega

/-- What the reader should make of the parameters. -/
def FrameParams.parsed (params : FrameParams) : ParsedWireFrame where
  msg_type := params.msg_type
  msg_id := toString params.msg_id.toNat
  sender_id := toString params.sender_id.toNat
  recipient_id := toString params.recipient_id.toNat
  payload := params.payload

/-- The fields of a frame of the server, as the client reads them. -/
def parsed (f : Frame) : ParsedWireFrame where
  msg_type := f.hdr.msg_type
  msg_id := toString f.hdr.msg_id.toNat
  sender_id := toString f.hdr.sender_id.toNat
  recipient_id := toString f.hdr.recipient_id.toNat
  payload := f.payload

theorem id_text_uint64 (x : UInt64) : id_text (bytesOf 8 x.toNat) = toString x.toNat := by
  unfold id_text
  rw [numberOf_bytesOf]
  have := x.toNat_lt
  omega

theorem payload_length_bytes (f : Frame) (rest : Bytes) :
    numberOf ((f.bytes ++ rest).take 4) = f.hdr.payload_len.toNat := by
  have hfield : (f.bytes ++ rest).take 4 = bytesOf 4 f.hdr.payload_len.toNat := rfl
  rw [hfield, numberOf_bytesOf]
  have := f.hdr.payload_len.toNat_lt
  omega

theorem next_frame_bytes (f : Frame) (rest : Bytes) :
    next_frame (f.bytes ++ rest) = some (parsed f, rest) := by
  have hlen := length_frame_bytes f
  have htype : (f.bytes ++ rest).getD 4 0 = f.hdr.msg_type := rfl
  have hmsg : ((f.bytes ++ rest).drop 6).take 8 = bytesOf 8 f.hdr.msg_id.toNat := rfl
  have hsender : ((f.bytes ++ rest).drop 14).take 8 = bytesOf 8 f.hdr.sender_id.toNat := rfl
  have hrecipient : ((f.bytes ++ rest).drop 22).take 8 = bytesOf 8 f.hdr.recipient_id.toNat := rfl
  have hpayload : ((f.bytes ++ rest).take (30 + f.hdr.payload_len.toNat)).drop 30 = f.payload := by
    rw [List.take_append_of_le_length (by omega), List.take_of_length_le (by omega), Frame.bytes,
      List.drop_append_of_le_length (by rw [length_header_bytes]),
      List.drop_of_length_le (by rw [length_header_bytes]), List.nil_append]
  have hrest : (f.bytes ++ rest).drop (30 + f.hdr.payload_len.toNat) = rest := by
    rw [List.drop_append_of_le_length (by omega), List.drop_of_length_le (by omega),
      List.nil_append]
  unfold next_frame FRAME_HEADER_BYTES
  rw [List.length_append, if_neg (by omega)]
  dsimp only
  rw [payload_length_bytes, if_neg (by omega), htype, hmsg, hsender, hrecipient, hpayload, hrest,
    id_text_uint64, id_text_uint64, id_text_uint64]
  rfl

/-- A frame of which something is missing is no frame yet. -/
theorem next_frame_piece {f : Frame} {piece : Bytes} (hpiece : piece <+: f.bytes)
    (hne : piece ≠ f.bytes) : next_frame piece = none := by
  obtain ⟨missing, hmissing⟩ := hpiece
  have hpos : 0 < missing.length := by
    rw [List.length_pos_iff]
    rintro rfl
    rw [List.append_nil] at hmissing
    exact hne hmissing
  have hlen : piece.length + missing.length = 30 + f.hdr.payload_len.toNat := by
    rw [← List.length_append, hmissing, length_frame_bytes]
  unfold next_frame FRAME_HEADER_BYTES
  split
  · rfl
  · dsimp only
    have hfield : piece.take 4 = f.bytes.take 4 := by
      rw [← hmissing, List.take_append_of_le_length (by omega)]
    have hnumber := payload_length_bytes f []
    rw [List.append_nil] at hnumber
    rw [hfield, hnumber, if_pos (by omega)]

end loomic.chat_protocol
