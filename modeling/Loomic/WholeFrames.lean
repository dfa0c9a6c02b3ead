-- The bytes that a TCP session sends (Session.cpp). Two writers share the
-- socket: `run()` writes acknowledgements, PONGs and errors directly, and
-- `do_write` writes what `enqueue` appended. An `async_write` sends its frame in
-- pieces, so two of them at once can mix their bytes.
import Loomic.Lib.Machine
import Loomic.SessionRun
import Loomic.WriteQueue

open loomic.frame loomic.queue loomic.session_run loomic.session_run.Session machines

namespace loomic.whole_frames

/-! ## A session and its socket -/

/-- The coroutine `run()`, the write queue with its coroutine `do_write`, and the closures that
other sessions have posted to the strand. `direct` is the frame that `run()` is writing, with
the number of bytes already sent, and `sent` is that number for the frame that `do_write` is
writing. `started` lists the frames whose write has begun, in order. -/
structure Conn where
  run : Run Await
  registered : Bool
  queue : WriteQueue Frame
  posts : List OutboundMessage
  direct : Option (Frame × Nat)
  sent : Nat
  broken : Bool
  wire : Bytes
  started : List Frame

inductive Label
  | resume (ev : Event OutboundMessage)
  | post (message : OutboundMessage)
  | run_post
  | start
  | send_direct (n : Nat)
  | send_queued (n : Nat)
  | queued_written
  | queued_failed

def Conn.enqueue (proto : Proto) (c : Conn) (message : OutboundMessage) : Conn :=
  { c with queue := c.queue.push (wire_frame proto message) }

/-- The effects of a segment of `run()` on the session. -/
def Conn.perform (proto : Proto) (c : Conn) : Effect OutboundMessage → Conn
  | .registry_insert _ => { c with registered := true }
  | .registry_remove _ => { c with registered := false }
  | .enqueue message => c.enqueue proto message
  | .write_frame f => { c with direct := some (f, 0), started := c.started ++ [f] }
  | _ => c

def Conn.segment (proto : Proto) (c : Conn) (seg : Segment OutboundMessage Await) : Conn :=
  seg.2.foldl (Conn.perform proto) { c with run := seg.1 }

/-- `do_write` goes on with the next frame, if there is one. -/
def Conn.take (c : Conn) (queue : WriteQueue Frame) : Conn :=
  { c with queue := queue, sent := 0, started := c.started ++ queue.in_flight.toList }

/-- The next piece of a frame of which `sent` bytes have been sent. -/
def piece (f : Frame) (sent n : Nat) : Bytes := (f.bytes.drop sent).take n

/-- A write ends when all of its frame is sent. A write that fails breaks the connection, and
nothing more is sent on it. -/
def Conn.step (verify : Bytes → Option UserId) (proto : Proto) (c : Conn) : Label → Option Conn
  | .resume .written =>
    match c.direct with
    | some (f, n) =>
      if n = f.bytes.length ∧ ¬ c.broken then
        (resume c.run verify .written).map (Conn.segment proto { c with direct := none })
      else none
    | none => none
  | .resume .raised => (resume c.run verify .raised).map
      (Conn.segment proto { c with direct := none, broken := c.broken || c.direct.isSome })
  | .resume ev => (resume c.run verify ev).map (Conn.segment proto c)
  | .post message => if c.registered then some { c with posts := c.posts ++ [message] } else none
  | .run_post =>
    match c.posts with
    | message :: posts => some ({ c with posts := posts }.enqueue proto message)
    | [] => none
  | .start => c.queue.start.map c.take
  | .send_direct n =>
    match c.direct with
    | some (f, m) =>
      if 0 < n ∧ m + n ≤ f.bytes.length ∧ ¬ c.broken then
        some { c with direct := some (f, m + n), wire := c.wire ++ piece f m n }
      else none
    | none => none
  | .send_queued n =>
    match c.queue.in_flight with
    | some f =>
      if 0 < n ∧ c.sent + n ≤ f.bytes.length ∧ ¬ c.broken then
        some { c with sent := c.sent + n, wire := c.wire ++ piece f c.sent n }
      else none
    | none => none
  | .queued_written =>
    match c.queue.in_flight with
    | some f =>
      if c.sent = f.bytes.length ∧ ¬ c.broken then c.queue.written.map c.take else none
    | none => none
  | .queued_failed => c.queue.failed.map fun queue => { c with queue := queue, broken := true }

def conn (verify : Bytes → Option UserId) (proto : Proto) : Machine Conn Label where
  start := { run := start, registered := false, queue := .empty, posts := [], direct := none
             sent := 0, broken := false, wire := [], started := [] }
  step := Conn.step verify proto

/-! ## What must hold -/

/-- At most one `async_write` is outstanding. -/
def OneWrite (c : Conn) : Prop := c.direct = none ∨ c.queue.in_flight = none

/-- The bytes sent are those of the frames whose write has begun, one frame after the other. -/
def Whole (c : Conn) : Prop := c.wire <+: stream c.started

instance (c : Conn) : Decidable (OneWrite c) :=
  decidable_of_iff (c.direct.isNone ∨ c.queue.in_flight.isNone) (by simp [OneWrite])

instance (c : Conn) : Decidable (Whole c) := by unfold Whole; infer_instance

/-- The segment that follows writes a frame. -/
def Writes (verify : Bytes → Option UserId) (r : Run Await) (ev : Event OutboundMessage) : Prop :=
  ∃ seg ∈ resume r verify ev, ∃ f, Effect.write_frame f ∈ seg.2

instance (verify : Bytes → Option UserId) (r : Run Await) (ev : Event OutboundMessage) :
    Decidable (Writes verify r ev) :=
  decidable_of_iff ((resume r verify ev).any fun seg => seg.2.any (· matches .write_frame _)) (by
    simp only [Writes, Option.any_eq_true, List.any_eq_true]
    refine exists_congr fun seg => and_congr_right fun _ => ⟨?_, ?_⟩
    · rintro ⟨e, he, hm⟩
      cases e <;> simp at hm
      exact ⟨_, he⟩
    · rintro ⟨f, hf⟩
      exact ⟨_, hf, rfl⟩)

/-- The writer that takes up a frame finds the other one idle. -/
def Alone (verify : Bytes → Option UserId) (c : Conn) : Label → Prop
  | .resume ev => Writes verify c.run ev → c.queue.in_flight = none
  | .start => c.queue.write_queue ≠ [] → c.direct = none
  | _ => True

instance (verify : Bytes → Option UserId) (c : Conn) : ∀ a, Decidable (Alone verify c a)
  | .resume ev => inferInstanceAs (Decidable (Writes verify c.run ev → _))
  | .start => inferInstanceAs (Decidable (_ → _))
  | .post _ | .run_post | .send_direct _ | .send_queued _ | .queued_written | .queued_failed =>
    isTrue trivial

/-! ## The socket -/

/-- What the session and its two writers have on the socket. -/
structure Socket where
  direct : Option (Frame × Nat)
  in_flight : Option Frame
  sent : Nat
  broken : Bool
  wire : Bytes
  started : List Frame

def Conn.socket (c : Conn) : Socket :=
  { direct := c.direct, in_flight := c.queue.in_flight, sent := c.sent, broken := c.broken
    wire := c.wire, started := c.started }

/-- What is left to send of the frame that is being written. -/
def Socket.unsent (s : Socket) : Bytes :=
  match s.direct, s.in_flight with
  | some (f, n), _ => f.bytes.drop n
  | none, some f => f.bytes.drop s.sent
  | none, none => []

/-- The waits of `run()` for a write of its own. -/
def awaits_write : Await → Bool
  | .auth_error | .ack | .pong | .rate_error => true
  | _ => false

structure Good (s : Socket) (await : Await) : Prop where
  one : s.direct = none ∨ s.in_flight = none
  awaits : s.direct ≠ none → awaits_write await = true
  whole : s.wire <+: stream s.started
  all : s.broken = false → s.wire ++ s.unsent = stream s.started

/-- A segment writes nothing, or writes one frame and does nothing else. -/
def WritesAtMostOnce (seg : Segment OutboundMessage Await) : Prop :=
  (∀ f, .write_frame f ∉ seg.2) ∨
    ∃ f, seg.2 = [.write_frame f] ∧ awaits_write seg.1.await = true

section Segments

variable {verify : Bytes → Option UserId} {r : Run Await}

theorem once_read_header {es : List (Effect OutboundMessage)} (h : ∀ f, .write_frame f ∉ es) :
    WritesAtMostOnce (read_header r es) := by
  refine .inl fun f hf => ?_
  rcases List.mem_append.mp hf with hf | hf
  · exact h f hf
  · simp at hf

theorem once_authenticate {token : Bytes} :
    WritesAtMostOnce (authenticate r verify token) := by
  unfold authenticate
  split
  · exact .inr ⟨error_frame, rfl, rfl⟩
  · exact .inl (by simp [Run.to])

theorem once_chat {hdr : FrameHeader} {payload : Bytes} {allowed : Bool} :
    WritesAtMostOnce (chat r hdr payload allowed) := by
  unfold chat
  split
  · exact .inl (by simp [Run.to])
  · exact .inr ⟨error_frame, rfl, rfl⟩

theorem once_typing_fan_out {hdr : FrameHeader} {members : List UserId} :
    WritesAtMostOnce (typing_fan_out r hdr members) :=
  once_read_header (by simp)

theorem once_dispatch {hdr : FrameHeader} {allowed : Bool} :
    WritesAtMostOnce (dispatch r hdr allowed) := by
  unfold dispatch
  split_ifs
  · exact .inl (by simp [Run.to])
  · exact .inl (by simp [co_return, Run.to])
  · exact once_chat
  · exact .inl (by simp [Run.to])
  · exact .inl (by simp [Run.to])
  · exact once_read_header (by simp)
  · exact .inl (by simp [Run.to])
  · exact once_read_header (by simp)

theorem once_raise : WritesAtMostOnce (raise r) := by
  unfold raise Run.cleanup
  split <;> exact .inl (by simp [Run.to])

theorem once_resume {ev : Event OutboundMessage} {seg : Segment OutboundMessage Await}
    (h : resume r verify ev = some seg) : WritesAtMostOnce seg := by
  unfold resume at h
  split at h
  · split_ifs at h <;> cases h
    · exact .inl (by simp [co_return, Run.to])
    · exact once_authenticate
    · exact .inl (by simp [Run.to])
  · split_ifs at h; cases h; exact once_authenticate
  · cases h; exact .inl (by simp [co_return, Run.to])
  · cases h; exact .inr ⟨pong_frame, rfl, rfl⟩
  · cases h; exact .inl (by simp [Run.to])
  · cases h; exact once_read_header (by simp)
  · cases h; exact once_dispatch
  · cases h; exact .inr ⟨pong_frame, rfl, rfl⟩
  · cases h; exact once_read_header (by simp)
  · split_ifs at h; cases h; exact once_chat
  · cases h; exact once_read_header (by simp)
  · cases h; exact once_read_header (by simp)
  · split_ifs at h <;> cases h
    · exact .inl (by simp [Run.to])
    · exact once_typing_fan_out
  · cases h; exact once_typing_fan_out
  · split_ifs at h; cases h; exact once_read_header (by simp)
  · cases h; exact .inl (by simp [Run.to])
  · cases h; exact .inl (by simp [Run.to])
  · split_ifs at h; cases h; exact once_raise
  · simp at h

/-- No operation but a write ends a wait for a write. -/
theorem no_write_awaited {ev : Event OutboundMessage} {seg : Segment OutboundMessage Await}
    (hw : ev ≠ .written) (hr : ev ≠ .raised) (h : resume r verify ev = some seg) :
    awaits_write r.await = false := by
  obtain ⟨await, user_id⟩ := r
  cases await with
  | auth_error => cases ev <;> simp_all [resume]
  | ack => cases ev <;> simp_all [resume]
  | pong => cases ev <;> simp_all [resume]
  | rate_error => cases ev <;> simp_all [resume]
  | _ => rfl

end Segments

theorem socket_perform {proto : Proto} {es : List (Effect OutboundMessage)}
    (hes : ∀ f, .write_frame f ∉ es) (c : Conn) :
    (es.foldl (Conn.perform proto) c).socket = c.socket := by
  induction es generalizing c with
  | nil => rfl
  | cons e es ih =>
    have hone : (c.perform proto e).socket = c.socket := by
      cases e with
      | write_frame f => exact absurd List.mem_cons_self (hes f)
      | enqueue message => simp [Conn.perform, Conn.enqueue, Conn.socket]
      | _ => rfl
    rw [List.foldl_cons, ih (fun f hf => hes f (List.mem_cons_of_mem _ hf)), hone]

theorem run_perform {proto : Proto} (es : List (Effect OutboundMessage)) (c : Conn) :
    (es.foldl (Conn.perform proto) c).run = c.run := by
  induction es generalizing c with
  | nil => rfl
  | cons e es ih =>
    rw [List.foldl_cons, ih]
    cases e <;> rfl

/-! ## What a run keeps -/

section Invariant

variable {verify : Bytes → Option UserId} {proto : Proto} {c c' : Conn}

/-- What a segment makes of the socket. -/
theorem segment_cases (proto : Proto) (c : Conn) {seg : Segment OutboundMessage Await}
    (h : WritesAtMostOnce seg) :
    (∀ f, .write_frame f ∉ seg.2) ∧ (c.segment proto seg).socket = c.socket ∨
    ∃ f, .write_frame f ∈ seg.2 ∧ awaits_write seg.1.await = true ∧
      (c.segment proto seg).socket =
        { c.socket with direct := some (f, 0), started := c.started ++ [f] } := by
  rcases h with h | ⟨f, hf, ha⟩
  · exact .inl ⟨h, socket_perform h _⟩
  · refine .inr ⟨f, by simp [hf], ha, ?_⟩
    rw [Conn.segment, hf]
    rfl

/-- A segment of `run()` that finds no write of its own outstanding. -/
theorem good_segment {ev : Event OutboundMessage} {seg : Segment OutboundMessage Await}
    {r : Run Await}
    (hseg : resume r verify ev = some seg) (hd : c.direct = none)
    (hin : (∃ f, .write_frame f ∈ seg.2) → c.queue.in_flight = none)
    (hwhole : c.wire <+: stream c.started)
    (hall : c.broken = false → c.wire ++ c.socket.unsent = stream c.started) :
    Good (c.segment proto seg).socket (c.segment proto seg).run.await := by
  have hrun : (c.segment proto seg).run = seg.1 := run_perform _ _
  rcases segment_cases proto c (once_resume hseg) with ⟨_, hs⟩ | ⟨f, hf, ha, hs⟩
  · rw [hs]
    exact ⟨.inl hd, fun h => absurd hd h, hwhole, hall⟩
  · have hidle : c.queue.in_flight = none := hin ⟨f, hf⟩
    have hnone : c.socket.unsent = [] := by simp [Socket.unsent, Conn.socket, hd, hidle]
    rw [hs, hrun]
    refine ⟨.inr hidle, fun _ => ha, ?_, fun hb => ?_⟩
    · simpa [Conn.socket] using hwhole.trans (List.prefix_append _ _)
    · have hwire := hall hb
      rw [hnone, List.append_nil] at hwire
      simp [Conn.socket, Socket.unsent, hwire]

/-- `do_write` goes on while `run()` is not writing, or finds no frame. -/
theorem good_take {q : WriteQueue Frame} (hg : Good c.socket c.run.await)
    (hd : c.direct = none ∨ q.in_flight = none)
    (hall : c.broken = false →
      c.wire ++ ({ c.socket with in_flight := none } : Socket).unsent = stream c.started) :
    Good (c.take q).socket (c.take q).run.await := by
  refine ⟨hd, hg.awaits, ?_, fun hb => ?_⟩
  · simpa [Conn.socket, Conn.take] using hg.whole.trans (List.prefix_append _ _)
  · have hwire := hall hb
    rcases hq : q.in_flight with _ | f
    · rcases hc : c.direct with _ | ⟨f, n⟩ <;>
        simpa [Conn.socket, Conn.take, Socket.unsent, hq, hc] using hwire
    · have hnone : c.direct = none := hd.resolve_right (by simp [hq])
      simp only [Conn.socket, Socket.unsent, hnone, List.append_nil] at hwire
      simp [Conn.socket, Conn.take, Socket.unsent, hq, hnone, hwire]

theorem piece_append_drop (f : Frame) (m n : Nat) :
    piece f m n ++ f.bytes.drop (m + n) = f.bytes.drop m := by
  rw [piece, ← List.drop_drop, List.take_append_drop]

/-- A piece that is sent moves from what is left to the wire. -/
theorem good_send {s : Socket} {f : Frame} {m n : Nat} {direct : Option (Frame × Nat)}
    {sent : Nat} {await : Await} (hg : Good s await) (hb : s.broken = false)
    (hone : direct = none ∨ s.in_flight = none) (haw : direct ≠ none → s.direct ≠ none)
    (hs : s.unsent = f.bytes.drop m)
    (hs' : ({ s with direct := direct, sent := sent } : Socket).unsent = f.bytes.drop (m + n)) :
    Good { s with direct := direct, sent := sent, wire := s.wire ++ piece f m n } await := by
  have hwire : s.wire ++ piece f m n ++ f.bytes.drop (m + n) = stream s.started := by
    rw [List.append_assoc, piece_append_drop, ← hs, hg.all hb]
  exact ⟨hone, fun h => hg.awaits (haw h), ⟨_, hwire⟩, fun _ => by rw [← hwire, ← hs']; rfl⟩

theorem good_resume {ev : Event OutboundMessage} (hg : Good c.socket c.run.await)
    (hok : Alone verify c (.resume ev))
    (h : (conn verify proto).step c (.resume ev) = some c') : Good c'.socket c'.run.await := by
  by_cases hw : ev = .written
  · subst hw
    simp only [conn, Conn.step] at h
    split at h
    · rename_i f n hd
      split_ifs at h with hn
      obtain ⟨seg, hseg, rfl⟩ := Option.map_eq_some_iff.mp h
      have hidle : c.queue.in_flight = none := hg.one.resolve_left (by simp [Conn.socket, hd])
      refine good_segment hseg rfl (fun _ => hidle) hg.whole fun hb => ?_
      have hnone : c.socket.unsent = [] := by
        simp only [Conn.socket, Socket.unsent, hd]
        exact List.drop_eq_nil_of_le hn.1.ge
      have hall := hg.all hb
      rw [hnone] at hall
      simpa [Conn.socket, Socket.unsent, hidle] using hall
    · simp at h
  by_cases hr : ev = .raised
  · subst hr
    obtain ⟨seg, hseg, rfl⟩ := Option.map_eq_some_iff.mp h
    refine good_segment hseg rfl (fun hf => hok ⟨seg, hseg, hf⟩) hg.whole fun hb => ?_
    simp only [Bool.or_eq_false_iff, Option.isSome_eq_false_iff, Option.isNone_iff_eq_none] at hb
    have hall := hg.all hb.1
    simpa [Conn.socket, Socket.unsent, hb.2] using hall
  · have hstep : (resume c.run verify ev).map (Conn.segment proto c) = some c' := by
      cases ev <;> first | exact h | exact absurd rfl hw | exact absurd rfl hr
    obtain ⟨seg, hseg, rfl⟩ := Option.map_eq_some_iff.mp hstep
    have hd : c.direct = none := by
      by_contra hd
      have haw := hg.awaits hd
      rw [no_write_awaited hw hr hseg] at haw
      cases haw
    exact good_segment hseg hd (fun hf => hok ⟨seg, hseg, hf⟩) hg.whole hg.all

theorem good_step {a : Label} (hg : Good c.socket c.run.await) (hok : Alone verify c a)
    (h : (conn verify proto).step c a = some c') : Good c'.socket c'.run.await := by
  cases a with
  | resume ev => exact good_resume hg hok h
  | post message =>
    simp only [conn, Conn.step] at h
    split_ifs at h
    cases h
    exact hg
  | run_post =>
    simp only [conn, Conn.step] at h
    split at h <;> cases h
    simpa [Conn.socket, Conn.enqueue] using hg
  | start =>
    obtain ⟨q, hq, rfl⟩ := Option.map_eq_some_iff.mp h
    obtain ⟨_, hin, rfl⟩ := start_eq_some hq
    refine good_take hg ?_ fun hb => ?_
    · rw [in_flight_next, List.head?_eq_none_iff]
      by_cases hempty : c.queue.write_queue = []
      · exact .inr hempty
      · exact .inl (hok hempty)
    · have hall := hg.all hb
      simpa [Conn.socket, hin] using hall
  | send_direct n =>
    simp only [conn, Conn.step] at h
    split at h
    · rename_i f m hd
      split_ifs at h with hn
      cases h
      have hidle : c.queue.in_flight = none := hg.one.resolve_left (by simp [Conn.socket, hd])
      exact good_send hg (by simpa [Conn.socket] using hn.2.2) (.inr hidle)
        (fun _ => by simp [Conn.socket, hd])
        (by simp [Conn.socket, Socket.unsent, hd]) (by simp [Socket.unsent])
    · simp at h
  | send_queued n =>
    simp only [conn, Conn.step] at h
    split at h
    · rename_i f hin
      split_ifs at h with hn
      cases h
      have hd : c.direct = none := hg.one.resolve_right (by simp [Conn.socket, hin])
      exact good_send hg (by simpa [Conn.socket] using hn.2.2) (.inl hd) (fun h => h)
        (by simp [Conn.socket, Socket.unsent, hd, hin])
        (by simp [Conn.socket, Socket.unsent, hd, hin])
    · simp at h
  | queued_written =>
    simp only [conn, Conn.step] at h
    split at h
    · rename_i f hin
      split_ifs at h with hn
      obtain ⟨q, hq, rfl⟩ := Option.map_eq_some_iff.mp h
      have hd : c.direct = none := hg.one.resolve_right (by simp [Conn.socket, hin])
      refine good_take hg (.inl hd) fun hb => ?_
      have hnone : c.socket.unsent = [] := by
        simp only [Conn.socket, Socket.unsent, hd, hin]
        exact List.drop_eq_nil_of_le hn.1.ge
      have hall := hg.all hb
      rw [hnone] at hall
      simpa [Conn.socket, Socket.unsent, hd] using hall
    · simp at h
  | queued_failed =>
    obtain ⟨q, hq, rfl⟩ := Option.map_eq_some_iff.mp h
    obtain ⟨_, hin, _⟩ := failed_eq_some hq
    exact ⟨.inr hin, hg.awaits, hg.whole, fun hb => by simp [Conn.socket] at hb⟩

/-- A segment that writes leaves its write, and the one that is outstanding. -/
theorem idle_of_segment {ev : Event OutboundMessage} {seg : Segment OutboundMessage Await}
    (hseg : resume c.run verify ev = some seg) (hone : OneWrite (c.segment proto seg))
    (hw : Writes verify c.run ev) : c.queue.in_flight = none := by
  obtain ⟨seg', hseg', f, hf⟩ := hw
  obtain rfl : seg = seg' := Option.some.inj (hseg.symm.trans hseg')
  rcases segment_cases proto c (once_resume hseg) with ⟨hno, _⟩ | ⟨f, _, _, hs⟩
  · exact absurd hf (hno f)
  · have hd := congrArg Socket.direct hs
    have hin := congrArg Socket.in_flight hs
    simp only [Conn.socket] at hd hin
    rw [← hin]
    exact hone.resolve_left (by simp [hd])

/-- Whatever was awaited, the segment that follows finds the queue as it was. -/
theorem step_resume {ev : Event OutboundMessage}
    (h : (conn verify proto).step c (.resume ev) = some c') :
    ∃ (c₀ : Conn) (seg : Segment OutboundMessage Await), c₀.run = c.run ∧ c₀.queue = c.queue ∧
      resume c.run verify ev = some seg ∧ c' = c₀.segment proto seg := by
  cases ev with
  | written =>
    simp only [conn, Conn.step] at h
    split at h
    · split_ifs at h
      obtain ⟨seg, hseg, rfl⟩ := Option.map_eq_some_iff.mp h
      exact ⟨{ c with direct := none }, seg, rfl, rfl, hseg, rfl⟩
    · simp at h
  | raised =>
    obtain ⟨seg, hseg, rfl⟩ := Option.map_eq_some_iff.mp h
    exact ⟨{ c with direct := none, broken := c.broken || c.direct.isSome }, seg, rfl, rfl, hseg,
      rfl⟩
  | _ =>
    obtain ⟨seg, hseg, rfl⟩ := Option.map_eq_some_iff.mp h
    exact ⟨c, seg, rfl, rfl, hseg, rfl⟩

/-- A writer that takes up a frame beside the other leaves two writes outstanding. -/
theorem alone_of_oneWrite {a : Label} (h : (conn verify proto).step c a = some c')
    (hone : OneWrite c') : Alone verify c a := by
  cases a with
  | resume ev =>
    obtain ⟨c₀, seg, hrun, hqueue, hseg, rfl⟩ := step_resume h
    rw [← hrun] at hseg
    intro hw
    rw [← hrun] at hw
    rw [← hqueue]
    exact idle_of_segment hseg hone hw
  | start =>
    obtain ⟨q, hq, rfl⟩ := Option.map_eq_some_iff.mp h
    obtain ⟨_, _, rfl⟩ := start_eq_some hq
    intro hne
    refine hone.resolve_right ?_
    simp only [Conn.take, in_flight_next, List.head?_eq_none_iff]
    exact hne
  | _ => trivial

end Invariant

/-! ## The law -/

/-- In a run of a TCP session no two writes are ever outstanding, and the bytes on the wire are
those of whole frames in order, exactly when each writer finds the other one idle whenever it
takes up a frame. -/
theorem frames_are_whole_iff_each_writer_is_alone (verify : Bytes → Option UserId)
    (proto : Proto) (as : List Label) (c : Conn)
    (hr : (conn verify proto).run as = some c) :
    (∀ bs c', bs <+: as → (conn verify proto).run bs = some c' → OneWrite c' ∧ Whole c') ↔
      (conn verify proto).Meets (Alone verify) as := by
  refine Machine.always_iff_meets (I := fun c => Good c.socket c.run.await)
    (P := fun c => OneWrite c ∧ Whole c) ?_ ?_ ?_ ?_ hr
  · exact ⟨.inl rfl, fun h => absurd rfl h, List.prefix_refl _, fun _ => rfl⟩
  · exact fun c a c' hg hok hs => good_step hg hok hs
  · exact fun c hg => ⟨hg.one, hg.whole⟩
  · exact fun c a c' _ hs hP => alone_of_oneWrite hs hP.1

/-- A protobuf encoding of one byte, and an AUTH frame without a token that lets user 7 in. -/
def one_byte : Proto := fun _ => ⟨[1], by decide⟩

def auth_header : Event OutboundMessage := .header { msg_type := MsgType.AUTH.byte } true

/-- The acknowledgement is written before a message comes, and the message after it. -/
def one_after_the_other : List Label :=
  [.resume auth_header, .resume (.replied 0), .send_direct 30, .resume .written, .post {},
    .run_post, .start, .send_queued 31]

theorem frames_are_whole_after_the_acknowledgement :
    ∃ c, (conn (fun _ => some 7) one_byte).run one_after_the_other = some c ∧
      OneWrite c ∧ Whole c := by
  refine ⟨_, rfl, ?_⟩
  exact (frames_are_whole_iff_each_writer_is_alone (fun _ => some 7) one_byte
    one_after_the_other _ rfl).mpr (by decide) one_after_the_other _ (List.prefix_refl _) rfl

/-- A message that comes while the acknowledgement is being written is written into it. -/
theorem two_frames_are_mixed :
    ∃ c, (conn (fun _ => some 7) one_byte).run [.resume auth_header, .post {},
      .resume (.replied 0), .run_post, .start, .send_direct 1, .send_queued 1] = some c ∧
      ¬ OneWrite c ∧ ¬ Whole c := by
  refine ⟨_, rfl, ?_, ?_⟩
  · decide
  · decide

end loomic.whole_frames
