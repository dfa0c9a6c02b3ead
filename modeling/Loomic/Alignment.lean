-- The alignment of the message loop of `Session::run` with the frames that the
-- client sends: which payloads the dispatch reads, and where the headers are
-- read when it leaves one unread.
import Loomic.Lib.Machine
import Loomic.SessionRun

open loomic.frame loomic.session_run loomic.session_run.Session machines

namespace loomic.alignment

/-! ## A session and its input -/

/-- The coroutine, the bytes of the client that it has not read, how many it has read, and
the headers that the loop has read, each with the place where it was read. -/
structure Conn where
  run : Run Await
  unread : Bytes
  pos : Nat
  headers : List (Nat × FrameHeader)

/-- A read of the socket is done, or another operation that is awaited. -/
inductive Label
  | read (allowed : Bool)
  | resume (ev : Event Unit)

/-- Read `n` bytes of the payload. -/
def Conn.read_payload (verify : Bytes → Option UserId) (c : Conn) (n : Nat) (allowed : Bool) :
    Option Conn :=
  if n ≤ c.unread.length then
    let ev : Event Unit := .payload (c.unread.take n) allowed
    (resume c.run verify ev).map fun seg =>
      { c with run := seg.1, unread := c.unread.drop n, pos := c.pos + n }
  else none

def Conn.read_header (verify : Bytes → Option UserId) (c : Conn) (allowed : Bool) :
    Option Conn :=
  if 30 ≤ c.unread.length then
    let hdr := FrameHeader.ofBytes c.unread
    let ev : Event Unit := .header hdr allowed
    (resume c.run verify ev).map fun seg =>
      { run := seg.1, unread := c.unread.drop 30, pos := c.pos + 30
        headers := c.headers ++ [(c.pos, hdr)] }
  else none

/-- A read is done once the bytes are there. The end of the input is an exception. -/
def Conn.step (verify : Bytes → Option UserId) (c : Conn) : Label → Option Conn
  | .read allowed =>
    match c.run.await with
    | .header => c.read_header verify allowed
    | .chat_payload hdr => c.read_payload verify hdr.payload_len.toNat allowed
    | .skip_payload len => c.read_payload verify len.toNat allowed
    | _ => none
  | .resume (.header _ _) => none
  | .resume (.payload _ _) => none
  | .resume ev => (resume c.run verify ev).map fun seg => { c with run := seg.1 }

/-- An authenticated session in its message loop, and the frames that it is sent. -/
def conn (verify : Bytes → Option UserId) (user_id : UserId) (frames : List Frame) :
    Machine Conn Label where
  start := { run := { await := .header, user_id := user_id }, unread := stream frames, pos := 0
             headers := [] }
  step := Conn.step verify

/-! ## The frames and the loop -/

/-- The headers of the frames, with the place of each in the stream. -/
def header_places : Nat → List Frame → List (Nat × FrameHeader)
  | _, [] => []
  | pos, f :: fs => (pos, f.hdr) :: header_places (pos + f.bytes.length) fs

/-- Each header that the loop has read is the header of the next frame. -/
def Aligned (frames : List Frame) (c : Conn) : Prop := c.headers <+: header_places 0 frames

/-- The dispatch reads the payload: of a CHAT frame, and of an unknown type up to a mebibyte. -/
def ReadsPayload (hdr : FrameHeader) : Prop :=
  hdr.type = .CHAT ∨ hdr.type ≠ .PING ∧ hdr.type ≠ .TYPING ∧ hdr.payload_len ≤ kMaxPayload

instance (hdr : FrameHeader) : Decidable (ReadsPayload hdr) := by
  unfold ReadsPayload; infer_instance

/-- No payload is left unread before the session ends, but for one at the very end of the
stream that is too short for a header. -/
def LeavesNothing : List Frame → Prop
  | [] => True
  | f :: fs => Oversized f.hdr ∨
      (ReadsPayload f.hdr ∨ f.hdr.payload_len = 0) ∧ LeavesNothing fs ∨
      fs = [] ∧ f.hdr.payload_len < 30

@[simp] theorem header_places_append (pos : Nat) (fs gs : List Frame) :
    header_places pos (fs ++ gs) =
      header_places pos fs ++ header_places (pos + (stream fs).length) gs := by
  induction fs generalizing pos with
  | nil => simp [header_places]
  | cons f fs ih => simp [header_places, ih, Nat.add_assoc]

/-! ## The dispatch -/

/-- The length of the payload that is awaited, if one is. -/
def awaited_payload : Await → Option UInt32
  | .chat_payload hdr => some hdr.payload_len
  | .skip_payload len => some len
  | _ => none

/-- The coroutine after the segment that dispatches on a header. -/
def after_header (r : Run Await) (hdr : FrameHeader) (allowed : Bool) : Run Await :=
  (dispatch r hdr allowed : Segment Unit Await).1

/-- What the dispatch makes of a header: the end, a read of the payload, or no read, in
which case a payload that would be read is empty. -/
theorem dispatch_cases (r : Run Await) (hdr : FrameHeader) (allowed : Bool) :
    Oversized hdr ∧ (after_header r hdr allowed).await = .done ∨
    ¬ Oversized hdr ∧ ReadsPayload hdr ∧
      awaited_payload (after_header r hdr allowed).await = some hdr.payload_len ∨
    ¬ Oversized hdr ∧ (ReadsPayload hdr → hdr.payload_len = 0) ∧
      awaited_payload (after_header r hdr allowed).await = none := by
  unfold after_header dispatch Oversized ReadsPayload
  split_ifs with hping hchat hbig hempty htyping hgroup hskip
  · refine .inr (.inr ⟨fun h => ?_, fun h => ?_, rfl⟩)
    · rw [hping] at h; exact absurd h.1 (by decide)
    · rw [hping] at h; simp [MsgType.PING, MsgType.CHAT] at h
  · exact .inl ⟨⟨hchat, hbig⟩, rfl⟩
  · refine .inr (.inr ⟨fun h => hbig h.2, fun _ => hempty, ?_⟩)
    unfold chat
    split <;> rfl
  · exact .inr (.inl ⟨fun h => hbig h.2, .inl hchat, rfl⟩)
  · exact .inr (.inr ⟨fun h => hchat h.1, fun h => absurd htyping (by grind), rfl⟩)
  · exact .inr (.inr ⟨fun h => hchat h.1, fun h => absurd htyping (by grind), rfl⟩)
  · exact .inr (.inl ⟨fun h => hchat h.1, .inr ⟨hping, htyping, hskip.2⟩, rfl⟩)
  · refine .inr (.inr ⟨fun h => hchat h.1, fun h => ?_, rfl⟩)
    rcases h with h | h
    · exact absurd h hchat
    · by_contra h0
      exact hskip ⟨UInt32.pos_iff_ne_zero.mpr h0, h.2.2⟩

/-- Every other operation leads to a wait for no payload. -/
theorem resume_other {verify : Bytes → Option UserId} {r : Run Await} {ev : Event Unit}
    {seg : Segment Unit Await} (hh : ∀ hdr allowed, ev ≠ .header hdr allowed)
    (hp : ∀ buf allowed, ev ≠ .payload buf allowed) (h : resume r verify ev = some seg) :
    seg.1.await.in_try = false ∨ r.await.in_try = true ∧ awaited_payload r.await = none ∧
      awaited_payload seg.1.await = none := by
  have hraise : (raise r : Segment Unit Await).1.await.in_try = false := by
    unfold raise Run.cleanup
    split <;> rfl
  unfold resume at h
  split at h <;> rename_i hawait
  case h_13 =>
    split_ifs at h <;> cases h <;> exact .inr ⟨by rw [hawait]; rfl, by rw [hawait]; rfl, rfl⟩
  case h_18 => split_ifs at h; cases h; exact .inl hraise
  case h_19 => simp at h
  all_goals first
    | exact absurd rfl (hh _ _)
    | exact absurd rfl (hp _ _)
    | (cases h; exact .inr ⟨by rw [hawait]; rfl, by rw [hawait]; rfl, rfl⟩)
    | (cases h; exact .inl rfl)

/-! ## What a run keeps -/

variable {verify : Bytes → Option UserId} {frames : List Frame} {c c' : Conn}

/-- The loop stands between two frames. -/
def Between (frames : List Frame) (c : Conn) : Prop :=
  ∃ fs rest, frames = fs ++ rest ∧ c.headers = header_places 0 fs ∧ c.unread = stream rest ∧
    c.pos = (stream fs).length ∧ LeavesNothing rest

/-- The loop stands between the header of a frame and its payload, of `len` bytes. -/
def Inside (frames : List Frame) (c : Conn) (len : UInt32) : Prop :=
  ∃ fs f rest, frames = fs ++ f :: rest ∧ c.headers = header_places 0 (fs ++ [f]) ∧
    c.unread = f.payload ++ stream rest ∧ c.pos = (stream fs).length + 30 ∧
    len = f.hdr.payload_len ∧ LeavesNothing rest

/-- The headers are aligned, and as long as the loop goes on it stands between two frames or
inside one, or the input is too short for one more header. -/
def Inv (frames : List Frame) (c : Conn) : Prop :=
  Aligned frames c ∧ (c.run.await.in_try = true →
    match awaited_payload c.run.await with
    | some len => Inside frames c len
    | none => Between frames c ∨ c.unread.length < 30)

theorem aligned_of_split (fs rest : List Frame) (hf : frames = fs ++ rest)
    (hh : c.headers = header_places 0 fs) : Aligned frames c := by
  rw [Aligned, hf, hh, header_places_append]
  exact List.prefix_append _ _

theorem resume_header {r : Run Await} (hr : r.await = .header) (hdr : FrameHeader)
    (allowed : Bool) : resume r verify (.header hdr allowed) =
      some (dispatch r hdr allowed : Segment Unit Await) := by
  unfold resume
  rw [hr]

theorem payload_eq_nil {f : Frame} (h : f.hdr.payload_len = 0) : f.payload = [] :=
  List.length_eq_zero_iff.mp (by rw [f.length_payload, h]; rfl)

theorem inv_read_header {allowed : Bool} (hi : Inv frames c) (ha : c.run.await = .header)
    (h : c.read_header verify allowed = some c') : Inv frames c' := by
  obtain ⟨hal, hloop⟩ := hi
  rw [ha] at hloop
  unfold Conn.read_header at h
  split_ifs at h with hlen
  obtain ⟨seg, hseg, rfl⟩ := Option.map_eq_some_iff.mp h
  rcases hloop rfl with ⟨fs, rest, rfl, hh, hun, hpos, hrest⟩ | hshort
  · rcases rest with _ | ⟨f, rest⟩
    · simp [hun] at hlen
    · have hun' : c.unread = f.hdr.bytes ++ (f.payload ++ stream rest) := by
        rw [hun, stream_cons, Frame.bytes, List.append_assoc]
      have hhdr : FrameHeader.ofBytes c.unread = f.hdr := by
        rw [hun']; exact ofBytes_header_bytes _ _
      have hdrop : c.unread.drop 30 = f.payload ++ stream rest := by
        rw [hun', List.drop_left' (length_header_bytes _)]
      have hplaces : c.headers ++ [(c.pos, f.hdr)] = header_places 0 (fs ++ [f]) := by
        simp [hh, hpos, header_places]
      rw [hhdr, resume_header ha, Option.some.injEq] at hseg
      subst hseg
      have hrun : (dispatch c.run f.hdr allowed : Segment Unit Await).1 =
          after_header c.run f.hdr allowed := rfl
      rw [hhdr, hplaces, hdrop, hrun]
      refine ⟨aligned_of_split (fs ++ [f]) rest (by simp) rfl, fun htry => ?_⟩
      rcases dispatch_cases c.run f.hdr allowed with ⟨_, hd⟩ | ⟨hno, hread, hd⟩ | ⟨hno, hread, hd⟩
      · simp [hd, Await.in_try] at htry
      · simp only [hd]
        refine ⟨fs, f, rest, rfl, rfl, rfl, by simp [hpos], rfl, ?_⟩
        rcases hrest with h | ⟨_, h⟩ | ⟨rfl, _⟩
        · exact absurd h hno
        · exact h
        · trivial
      · simp only [hd]
        rcases hrest with h | ⟨hcons, h⟩ | ⟨rfl, h⟩
        · exact absurd h hno
        · have hzero : f.hdr.payload_len = 0 := hcons.elim hread id
          exact .inl ⟨fs ++ [f], rest, by simp, rfl, by simp [payload_eq_nil hzero],
            by simp [hpos, hzero], h⟩
        · refine .inr ?_
          have := f.length_payload
          rw [UInt32.lt_iff_toNat_lt] at h
          simp only [stream_nil, List.append_nil]
          exact this ▸ h
  · omega

/-- The wait after a payload is for no payload. -/
theorem resume_payload {r : Run Await} {buf : Bytes} {allowed : Bool} {seg : Segment Unit Await}
    (hr : awaited_payload r.await ≠ none) (h : resume r verify (.payload buf allowed) = some seg) :
    awaited_payload seg.1.await = none := by
  obtain ⟨await, user_id⟩ := r
  cases await with
  | chat_payload hdr =>
    simp only [resume] at h
    split_ifs at h
    cases h
    unfold chat
    split <;> rfl
  | skip_payload len =>
    simp only [resume] at h
    split_ifs at h
    cases h
    rfl
  | _ => exact absurd rfl hr

theorem inv_read_payload {len : UInt32} {allowed : Bool} (hi : Inv frames c)
    (ha : awaited_payload c.run.await = some len)
    (h : c.read_payload verify len.toNat allowed = some c') : Inv frames c' := by
  obtain ⟨hal, hloop⟩ := hi
  have htry : c.run.await.in_try = true := by
    cases hr : c.run.await <;> simp_all [awaited_payload, Await.in_try]
  obtain ⟨fs, f, rest, rfl, hh, hun, hpos, rfl, hrest⟩ := by simpa only [ha] using hloop htry
  unfold Conn.read_payload at h
  split_ifs at h with hlen
  obtain ⟨seg, hseg, rfl⟩ := Option.map_eq_some_iff.mp h
  refine ⟨hal, fun _ => ?_⟩
  rw [resume_payload (by simp [ha]) hseg]
  refine .inl ⟨fs ++ [f], rest, by simp, hh, ?_, ?_, hrest⟩
  · simp only [hun, List.drop_left' f.length_payload]
  · simp [hpos, Nat.add_assoc]

theorem inv_step {a : Label} (hi : Inv frames c) (h : c.step verify a = some c') :
    Inv frames c' := by
  have hother : ∀ ev : Event Unit, (∀ hdr allowed, ev ≠ .header hdr allowed) →
      (∀ buf allowed, ev ≠ .payload buf allowed) →
      (resume c.run verify ev).map (fun seg => { c with run := seg.1 }) = some c' →
      Inv frames c' := by
    intro ev hh hp h
    obtain ⟨seg, hseg, rfl⟩ := Option.map_eq_some_iff.mp h
    refine ⟨hi.1, fun htry => ?_⟩
    rcases resume_other hh hp hseg with hout | ⟨hin, hnone, hnone'⟩
    · rw [hout] at htry
      cases htry
    · have hloop := hi.2 hin
      simp only [hnone] at hloop
      simp only [hnone']
      exact hloop
  cases a with
  | read allowed =>
    simp only [Conn.step] at h
    split at h <;> rename_i ha
    · exact inv_read_header hi ha h
    · exact inv_read_payload hi (by rw [ha]; rfl) h
    · exact inv_read_payload hi (by rw [ha]; rfl) h
    · simp at h
  | resume ev =>
    cases ev with
    | header hdr allowed => simp [Conn.step] at h
    | payload buf allowed => simp [Conn.step] at h
    | written => exact hother _ (fun _ _ => by simp) (fun _ _ => by simp) h
    | replied now_ms => exact hother _ (fun _ _ => by simp) (fun _ _ => by simp) h
    | frames messages => exact hother _ (fun _ _ => by simp) (fun _ _ => by simp) h
    | members ids => exact hother _ (fun _ _ => by simp) (fun _ _ => by simp) h
    | returned => exact hother _ (fun _ _ => by simp) (fun _ _ => by simp) h
    | raised => exact hother _ (fun _ _ => by simp) (fun _ _ => by simp) h

/-- The loop stays aligned while no payload is left unread. -/
theorem aligned_of_leavesNothing {user_id : UserId} (hf : LeavesNothing frames)
    {as : List Label} (h : (conn verify user_id frames).run as = some c) : Aligned frames c := by
  refine (Machine.invariant (I := Inv frames) ?_ (fun s a s' hi hs => inv_step hi hs) h).1
  exact ⟨List.nil_prefix, fun _ => .inl ⟨[], frames, rfl, rfl, rfl, rfl, hf⟩⟩

/-! ## What a frame leaves behind -/

theorem step_read_header {f : Frame} {rest : List Frame} (ha : c.run.await = .header)
    (hun : c.unread = f.bytes ++ stream rest) (allowed : Bool) :
    c.step verify (.read allowed) = some
      { run := after_header c.run f.hdr allowed, unread := f.payload ++ stream rest
        pos := c.pos + 30, headers := c.headers ++ [(c.pos, f.hdr)] } := by
  have hun' : c.unread = f.hdr.bytes ++ (f.payload ++ stream rest) := by
    rw [hun, Frame.bytes, List.append_assoc]
  have hlen : 30 ≤ c.unread.length := by simp [hun']
  have hhdr : FrameHeader.ofBytes c.unread = f.hdr := by
    rw [hun']; exact ofBytes_header_bytes _ _
  simp only [Conn.step, ha, Conn.read_header, if_pos hlen, hhdr, resume_header ha]
  rw [hun', List.drop_left' (length_header_bytes _)]
  rfl

theorem read_whole_payload {f : Frame} {rest : List Frame} {allowed : Bool}
    {seg : Segment Unit Await} (hun : c.unread = f.payload ++ stream rest)
    (hr : resume c.run verify (.payload f.payload allowed) = some seg) :
    c.read_payload verify f.hdr.payload_len.toNat allowed = some
      { c with run := seg.1, unread := stream rest, pos := c.pos + f.hdr.payload_len.toNat } := by
  have hlen : f.hdr.payload_len.toNat ≤ c.unread.length := by simp [hun, f.length_payload]
  rw [Conn.read_payload, if_pos hlen, hun, List.take_left' f.length_payload,
    List.drop_left' f.length_payload]
  exact Option.map_eq_some_iff.mpr ⟨seg, hr, rfl⟩

/-- The session once the loop has served a frame, with what the frame left unread. -/
def Conn.served (c : Conn) (f : Frame) (rest : List Frame) : Conn where
  run := c.run
  unread := (if ReadsPayload f.hdr then [] else f.payload) ++ stream rest
  pos := c.pos + 30 + (if ReadsPayload f.hdr then f.hdr.payload_len.toNat else 0)
  headers := c.headers ++ [(c.pos, f.hdr)]

/-- The loop serves a frame and comes back to a header. -/
theorem serve {user_id : UserId} (f : Frame) (rest : List Frame) (hno : ¬ Oversized f.hdr)
    (ha : c.run.await = .header) (hun : c.unread = f.bytes ++ stream rest) :
    ∃ as, (conn verify user_id frames).runFrom c as = some (c.served f rest) := by
  have hread : c.step verify (.read true) = _ := step_read_header ha hun true
  obtain ⟨⟨await, u⟩, unread, pos, headers⟩ := c
  cases ha
  -- the labels after the read of the header
  suffices h : ∃ as, (conn verify user_id frames).runFrom
      { run := after_header { await := .header, user_id := u } f.hdr true
        unread := f.payload ++ stream rest, pos := pos + 30
        headers := headers ++ [(pos, f.hdr)] } as = some
      { run := { await := .header, user_id := u }
        unread := (if ReadsPayload f.hdr then [] else f.payload) ++ stream rest
        pos := pos + 30 + (if ReadsPayload f.hdr then f.hdr.payload_len.toNat else 0)
        headers := headers ++ [(pos, f.hdr)] } by
    obtain ⟨as, h⟩ := h
    refine ⟨.read true :: as, ?_⟩
    rw [Machine.runFrom, show (conn verify user_id frames).step = Conn.step verify from rfl, hread]
    exact h
  have hnil : f.hdr.payload_len = 0 → f.payload = [] := payload_eq_nil
  unfold after_header dispatch
  by_cases hping : f.hdr.type = .PING
  · have hreads : ¬ ReadsPayload f.hdr := by simp [ReadsPayload, hping, MsgType.PING, MsgType.CHAT]
    simp only [if_pos hping, if_neg hreads]
    exact ⟨[.resume (.replied 0), .resume .written], rfl⟩
  simp only [if_neg hping]
  by_cases hchat : f.hdr.type = .CHAT
  · have hreads : ReadsPayload f.hdr := .inl hchat
    simp only [if_pos hchat, if_pos hreads, if_neg fun h => hno ⟨hchat, h⟩]
    by_cases hempty : f.hdr.payload_len = 0
    · simp only [hnil hempty, hempty]
      exact ⟨[.resume .returned], rfl⟩
    · simp only [if_neg hempty]
      refine ⟨[.read true, .resume .returned], ?_⟩
      rw [Machine.runFrom, Option.bind_eq_some_iff]
      exact ⟨_, read_whole_payload rfl (if_pos f.length_payload), rfl⟩
  simp only [if_neg hchat]
  by_cases htyping : f.hdr.type = .TYPING
  · have hreads : ¬ ReadsPayload f.hdr := by
      simp [ReadsPayload, htyping, MsgType.TYPING, MsgType.CHAT]
    simp only [if_pos htyping, if_neg hreads]
    by_cases hgroup : f.hdr.is_group = true
    · simp only [if_pos hgroup]
      exact ⟨[.resume (.members [0])], rfl⟩
    · simp only [if_neg hgroup]
      exact ⟨[], rfl⟩
  simp only [if_neg htyping]
  by_cases hmax : f.hdr.payload_len ≤ kMaxPayload
  · have hreads : ReadsPayload f.hdr := .inr ⟨hping, htyping, hmax⟩
    simp only [if_pos hreads]
    by_cases hempty : f.hdr.payload_len = 0
    · simp only [hempty, hnil hempty]
      exact ⟨[], rfl⟩
    · simp only [if_pos (And.intro (UInt32.pos_iff_ne_zero.mpr hempty) hmax)]
      refine ⟨[.read true], ?_⟩
      rw [Machine.runFrom, Option.bind_eq_some_iff]
      exact ⟨_, read_whole_payload rfl (if_pos f.length_payload), rfl⟩
  · have hreads : ¬ ReadsPayload f.hdr := by simp [ReadsPayload, hchat, hmax]
    simp only [if_neg hreads, if_neg fun h => hmax (And.right h)]
    exact ⟨[], rfl⟩

/-- Whatever the bytes are, the loop reads a header when there are enough. -/
theorem step_read_anyway (ha : c.run.await = .header) (hlen : 30 ≤ c.unread.length) :
    ∃ c', c.step verify (.read true) = some c' ∧
      c'.headers = c.headers ++ [(c.pos, FrameHeader.ofBytes c.unread)] := by
  simp only [Conn.step, ha, Conn.read_header, if_pos hlen, resume_header ha]
  exact ⟨_, rfl, rfl⟩

/-- After a payload that was left unread, a header is read that no frame has. -/
theorem not_aligned_after_leftover {fs rest : List Frame} {f : Frame} {hdr : FrameHeader}
    (hlen : f.hdr.payload_len ≠ 0) : ¬ header_places 0 (fs ++ [f]) ++
      [((stream fs).length + 30, hdr)] <+: header_places 0 (fs ++ f :: rest) := by
  have hlt : 0 < f.hdr.payload_len.toNat := by
    rw [Nat.pos_iff_ne_zero]
    exact fun h => hlen (UInt32.toNat_inj.mp h)
  rw [show fs ++ f :: rest = (fs ++ [f]) ++ rest by simp, header_places_append 0 (fs ++ [f]),
    List.prefix_append_right_inj]
  intro h
  cases rest with
  | nil => simp [header_places] at h
  | cons g rest =>
    simp only [header_places, List.cons_prefix_cons, Prod.mk.injEq] at h
    simp at h
    omega

theorem leavesNothing_of_aligned {user_id : UserId}
    (hal : ∀ as c, (conn verify user_id frames).run as = some c → Aligned frames c)
    {rest : List Frame} : ∀ (fs : List Frame) (as : List Label) (c : Conn), frames = fs ++ rest →
      (conn verify user_id frames).run as = some c → c.run.await = .header →
      c.headers = header_places 0 fs → c.unread = stream rest → c.pos = (stream fs).length →
      LeavesNothing rest := by
  induction rest with
  | nil => intros; trivial
  | cons f rest ih =>
    intro fs as c hf hr ha hh hun hpos
    by_cases hno : Oversized f.hdr
    · exact .inl hno
    obtain ⟨as', hserve⟩ : ∃ as', (conn verify user_id frames).runFrom c as' = _ :=
      serve f rest hno ha hun
    have hr' : (conn verify user_id frames).run (as ++ as') = some (c.served f rest) := by
      rw [Machine.run, Machine.runFrom_append]
      exact Option.bind_eq_some_iff.mpr ⟨c, hr, hserve⟩
    have hplaces : (c.served f rest).headers = header_places 0 (fs ++ [f]) := by
      simp [Conn.served, hh, hpos, header_places]
    by_cases hcons : ReadsPayload f.hdr ∨ f.hdr.payload_len = 0
    · refine .inr (.inl ⟨hcons, ih (fs ++ [f]) _ _ (by simp [hf]) hr' ha hplaces ?_ ?_⟩)
      · rcases hcons with h | h
        · simp [Conn.served, h]
        · simp [Conn.served, payload_eq_nil h]
      · rcases hcons with h | h
        · simp [Conn.served, h, hpos, Nat.add_assoc]
        · simp [Conn.served, h, hpos]
    · obtain ⟨hread, hlen⟩ := not_or.mp hcons
      refine .inr (.inr ?_)
      by_contra hshort
      have hmore : 30 ≤ (c.served f rest).unread.length := by
        rw [UInt32.lt_iff_toNat_lt, ← f.length_payload] at hshort
        simp only [Conn.served, if_neg hread, List.length_append]
        cases rest with
        | nil => simpa using hshort
        | cons g rest => simp; omega
      obtain ⟨c', hstep, hheaders⟩ :
          ∃ c', (conn verify user_id frames).step (c.served f rest) (.read true) = some c' ∧ _ :=
        step_read_anyway ha hmore
      have hbad := hal (as ++ as' ++ [.read true]) c'
        ((conn verify user_id frames).run_snoc_some.mpr ⟨_, hr', hstep⟩)
      rw [Aligned, hheaders, hplaces, hf] at hbad
      simp only [Conn.served, if_neg hread, Nat.add_zero, hpos] at hbad
      exact not_aligned_after_leftover hlen hbad

/-! ## The law -/

/-- The loop takes nothing but the headers of the frames for headers exactly when the dispatch
leaves no payload unread: that of a PING or TYPING frame is empty, and that of an unknown type
is of a mebibyte at most. After an oversized CHAT frame nothing is read, and at the very end of
the stream a payload too short for a header does no harm. -/
theorem headers_are_aligned_iff_no_payload_is_left (verify : Bytes → Option UserId)
    (user_id : UserId) (frames : List Frame) :
    (∀ as c, (conn verify user_id frames).run as = some c → Aligned frames c) ↔
      LeavesNothing frames :=
  ⟨fun h => leavesNothing_of_aligned h [] [] _ rfl rfl rfl rfl rfl rfl,
    fun hf _ _ hr => aligned_of_leavesNothing hf hr⟩

/-- A PING whose payload is the header of an empty CHAT frame for user 9. -/
def smuggled_header : FrameHeader := { msg_type := MsgType.CHAT.byte, recipient_id := 9 }

def smuggling_ping : Frame where
  hdr := { payload_len := 30, msg_type := MsgType.PING.byte }
  payload := smuggled_header.bytes
  length_payload := by simp

/-- The loop takes the payload of the PING for a header, and routes the message. -/
theorem a_payload_is_taken_for_a_header :
    ∃ c, (conn (fun _ => none) 7 [smuggling_ping]).run
      [.read true, .resume (.replied 0), .resume .written, .read true] = some c ∧
      c.headers = [(0, smuggling_ping.hdr), (30, smuggled_header)] ∧
      c.run.await = .route_message ∧ ¬ Aligned [smuggling_ping] c := by
  refine ⟨_, rfl, rfl, rfl, fun h => ?_⟩
  have hlen : 2 ≤ 1 := h.length_le
  omega

end loomic.alignment
