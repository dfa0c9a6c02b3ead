-- The gateway gets its frames back from the stream, however the network cuts
-- it into chunks.
import Loomic.ChatProtocol

open chunks loomic.chat_protocol loomic.frame

namespace loomic.reassembly

section Frames

variable {params : FrameParams}

theorem encode_frame_eq (h : params.payload.length < 2 ^ 32) :
    encode_frame params = (params.frame h).bytes := by
  unfold encode_frame Frame.bytes FrameHeader.bytes FrameParams.frame
  simp only [List.append_assoc, List.cons_append]

theorem next_frame_encode (h : params.payload.length < 2 ^ 32) (more : Bytes) :
    next_frame (encode_frame params ++ more) = some (params.parsed, more) := by
  rw [encode_frame_eq h, next_frame_bytes]
  rfl

theorem receive_eq (chunks : List Bytes) :
    receive chunks = chunks.foldl frame_splitter.feed ([], []) := rfl

end Frames

/-- The frames come out in their order with their fields and payloads, and the buffer keeps the
piece of the next one. -/
theorem the_chunks_do_not_matter (frames : List FrameParams) (further : FrameParams)
    {piece : Bytes} {chunks : List Bytes}
    (hsize : ∀ params ∈ frames, params.payload.length < 2 ^ 32)
    (hfurther : further.payload.length < 2 ^ 32) (hpiece : piece <+: encode_frame further)
    (hne : piece ≠ encode_frame further)
    (hcut : chunks.flatten = frames.flatMap encode_frame ++ piece) :
    receive chunks = (frames.map FrameParams.parsed, piece) := by
  rw [encode_frame_eq hfurther] at hpiece hne
  rw [receive_eq, feed_chunks, hcut]
  apply extract_flatMap
  · intro params hparams more
    have hnext := next_frame_encode (hsize params hparams) more
    rw [frame_splitter_next]
    exact hnext
  · exact next_frame_piece hpiece hne

/-- A PING and a CHAT that are cut inside a header and inside a payload, and the first byte of a
third frame. -/
theorem two_frames_in_three_chunks :
    let ping : FrameParams := { msg_type := 3 }
    let chat : FrameParams := { msg_type := 1, payload := [0x68, 0x69], recipient_id := 7 }
    receive [(encode_frame ping).take 9, [],
        (encode_frame ping).drop 9 ++ (encode_frame chat).take 31,
        (encode_frame chat).drop 31 ++ [0]] =
      ([ping.parsed, chat.parsed], [0]) :=
  the_chunks_do_not_matter
    [{ msg_type := 3 }, { msg_type := 1, payload := [0x68, 0x69], recipient_id := 7 }]
    { msg_type := 3 } (by decide) (by decide) ⟨_, rfl⟩ (by decide) (by decide)

end loomic.reassembly
