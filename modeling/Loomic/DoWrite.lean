-- The coroutines behind a write queue (enqueue and do_write of Session.cpp and
-- WebSocketSession.cpp), as the sessions spawn them: whoever appends looks at
-- the flag `writing_`, and nothing else says whether a `do_write` is there.
-- There is never more than one, so the structure `WriteQueue` has room for it.
import Loomic.ChatFrames
import Loomic.Lib.Machine
import Loomic.WebSocketTexts

open loomic.delivery_format loomic.frame loomic.queue loomic.websocket_texts machines

namespace loomic.do_write

/-! ## The pure model -/

/-- The members of a session, and all the `do_write` coroutines that have been spawned and have
not ended. What was appended, what was handed to the socket, and whether a write has failed, are
its history. -/
structure Session (α : Type) where
  write_queue : List α
  writing : Bool
  coroutines : List (DoWrite α)
  appended : List α
  handed : List α
  write_failed : Bool

inductive Label (β : Type)
  | append (b : β)
  | start (n : Nat)
  | written (n : Nat)
  | failed (n : Nat)

variable {α β : Type}

def Session.new : Session α where
  write_queue := []
  writing := false
  coroutines := []
  appended := []
  handed := []
  write_failed := false

/-- `push_back`, and a `do_write` is spawned where the flag says that there is none. -/
def Session.append (s : Session α) (frame : α) : Session α :=
  { s with
    write_queue := s.write_queue ++ [frame]
    writing := true
    coroutines := if s.writing then s.coroutines else s.coroutines ++ [.spawned]
    appended := s.appended ++ [frame] }

/-- The test of the loop in the `n`-th coroutine. -/
def Session.loop (s : Session α) (n : Nat) : Session α :=
  match s.write_queue with
  | [] => { s with writing := false, coroutines := s.coroutines.eraseIdx n }
  | frame :: rest =>
    { s with
      write_queue := rest
      coroutines := s.coroutines.set n (.writing frame)
      handed := s.handed ++ [frame] }

/-- The handler logs the error, and the coroutine ends. -/
def Session.fail (s : Session α) (n : Nat) : Session α :=
  { s with writing := false, coroutines := s.coroutines.eraseIdx n, write_failed := true }

/-- One segment of code between two suspension points. `text` is what a call appends, if it
appends something. -/
def Session.step (text : β → Option α) (s : Session α) : Label β → Option (Session α)
  | .append b => some (match text b with
    | some frame => s.append frame
    | none => s)
  | .start n =>
    match s.coroutines[n]? with
    | some .spawned => some (s.loop n)
    | _ => none
  | .written n =>
    match s.coroutines[n]? with
    | some (.writing _) => some (s.loop n)
    | _ => none
  | .failed n =>
    match s.coroutines[n]? with
    | some (.writing _) => some (s.fail n)
    | _ => none

def session (text : β → Option α) : Machine (Session α) (Label β) where
  start := .new
  step := Session.step text

/-- A TCP session appends only in `enqueue`. -/
def tcp (proto : Proto) (parse : ParseFromArray) : Machine (Session Frame) (Label Bytes) :=
  session (chat_frames.enqueue proto parse)

/-- The three places where a browser's session appends. -/
inductive Append
  | enqueue (frame : Bytes)
  | pong
  | receipt (message : OutboundMessage)

/-- The text that is appended. Nothing is where `dump` throws. -/
def Append.text (parse : ParseFromArray) : Append → Option Bytes
  | .enqueue frame => (deserialize_delivery parse frame).bind fun message =>
    dump (members_of message)
  | .pong => dump [("type", websocket_texts.text "pong")]
  | .receipt message =>
    match deserialize_delivery parse (serialize_delivery message) with
    | none => some []
    | some msg => dump
        [("conv_id", to_string msg.conv_id), ("msg_id", to_string msg.msg_id),
          ("type", websocket_texts.text "delivered"), ("user_id", to_string msg.sender_id)]

def ws (parse : ParseFromArray) : Machine (Session Bytes) (Label Append) :=
  session (Append.text parse)

variable {s s' : Session α} {text : β → Option α} {n : Nat} {c : DoWrite α}

/-! ## The steps -/

theorem append_eq_some {b : β} (hs : s.step text (.append b) = some s') :
    s' = (text b).elim s s.append := by
  obtain rfl := Option.some.inj hs
  cases text b <;> rfl

theorem start_eq_some (hs : s.step text (.start n) = some s') :
    s.coroutines[n]? = some .spawned ∧ s' = s.loop n := by
  dsimp only [Session.step] at hs
  split at hs
  · rename_i hc
    exact ⟨hc, (Option.some.inj hs).symm⟩
  · cases hs

theorem written_eq_some (hs : s.step text (.written n) = some s') :
    ∃ frame, s.coroutines[n]? = some (.writing frame) ∧ s' = s.loop n := by
  dsimp only [Session.step] at hs
  split at hs
  · rename_i frame hc
    exact ⟨frame, hc, (Option.some.inj hs).symm⟩
  · cases hs

theorem failed_eq_some (hs : s.step text (.failed n) = some s') :
    ∃ frame, s.coroutines[n]? = some (.writing frame) ∧ s' = s.fail n := by
  dsimp only [Session.step] at hs
  split at hs
  · rename_i frame hc
    exact ⟨frame, hc, (Option.some.inj hs).symm⟩
  · cases hs

/-! ## The invariant -/

/-- One coroutine at most, and the flag tells of it. Without one nothing is left to write, unless
a write has failed. What is handed to the socket and what waits are what was appended, in
order. -/
structure Sound (s : Session α) : Prop where
  one : s.coroutines.length ≤ 1
  flag : s.writing = true ↔ s.coroutines ≠ []
  drained : s.writing = false → s.write_queue = [] ∨ s.write_failed = true
  order : s.handed ++ s.write_queue = s.appended

theorem sound_new : Sound (.new : Session α) :=
  ⟨Nat.zero_le 1, by simp [Session.new], fun _ => .inl rfl, rfl⟩

/-- The coroutine that goes on is the only one. -/
theorem coroutines_eq (h : Sound s) (hc : s.coroutines[n]? = some c) :
    n = 0 ∧ s.coroutines = [c] := by
  obtain ⟨hn, hget⟩ := List.getElem?_eq_some_iff.mp hc
  have hone := h.one
  obtain rfl : n = 0 := by omega
  refine ⟨rfl, ?_⟩
  rw [List.eq_getElem_of_length_eq_one s.coroutines (by omega), hget]

theorem sound_append (h : Sound s) (frame : α) : Sound (s.append frame) := by
  have hnone : s.writing = false → s.coroutines = [] := by
    intro hw
    by_contra hne
    rw [h.flag.mpr hne] at hw
    cases hw
  refine ⟨?_, ?_, (nomatch ·), ?_⟩
  · dsimp only [Session.append]
    split_ifs with hw
    · exact h.one
    · rw [hnone (Bool.eq_false_iff.mpr hw)]
      exact Nat.le_refl 1
  · dsimp only [Session.append]
    split_ifs with hw
    · simpa using h.flag.mp hw
    · simp
  · dsimp only [Session.append]
    rw [← List.append_assoc, h.order]

/-- The loop takes the next frame, or ends its coroutine. -/
theorem sound_loop (h : Sound s) (hc : s.coroutines[n]? = some c) : Sound (s.loop n) := by
  obtain ⟨rfl, hone⟩ := coroutines_eq h hc
  have horder := h.order
  unfold Session.loop
  split
  · rename_i hq
    rw [hone]
    exact ⟨Nat.zero_le 1, by simp, fun _ => .inl hq, horder⟩
  · rename_i frame rest hq
    have hw : s.writing = true := h.flag.mpr (by rw [hone]; simp)
    rw [hone]
    refine ⟨Nat.le_refl 1, by simp [hw], fun hw' => ?_, ?_⟩
    · rw [hw] at hw'
      cases hw'
    · rw [hq] at horder
      simpa using horder

theorem sound_fail (h : Sound s) (hc : s.coroutines[n]? = some c) : Sound (s.fail n) := by
  obtain ⟨rfl, hone⟩ := coroutines_eq h hc
  unfold Session.fail
  rw [hone]
  exact ⟨Nat.zero_le 1, by simp, fun _ => .inr rfl, h.order⟩

theorem sound_step {a : Label β} (h : Sound s) (hs : s.step text a = some s') : Sound s' := by
  cases a with
  | append b =>
    obtain rfl := append_eq_some hs
    cases text b with
    | none => exact h
    | some frame => exact sound_append h frame
  | start n =>
    obtain ⟨hc, rfl⟩ := start_eq_some hs
    exact sound_loop h hc
  | written n =>
    obtain ⟨frame, hc, rfl⟩ := written_eq_some hs
    exact sound_loop h hc
  | failed n =>
    obtain ⟨frame, hc, rfl⟩ := failed_eq_some hs
    exact sound_fail h hc

theorem sound_run {as : List (Label β)} (hr : (session text).run as = some s) : Sound s :=
  Machine.invariant (M := session text) sound_new (fun _ _ _ h hs => sound_step h hs) hr

/-! ## The one coroutine -/

/-- The session with the coroutine that is there. -/
def Session.queue (s : Session α) : WriteQueue α where
  write_queue := s.write_queue
  writing := s.coroutines.head?.isSome
  do_write := s.coroutines.head?
  writing_eq := rfl

/-- What the step is in the structure that has room for one coroutine only. -/
def Moves (text : β → Option α) (q q' : WriteQueue α) : Label β → Prop
  | .append b => q' = (text b).elim q q.push
  | .start _ => q.start = some q'
  | .written _ => q.written = some q'
  | .failed _ => q.failed = some q'

theorem isSome_head (h : Sound s) : s.coroutines.head?.isSome = s.writing := by
  rw [Bool.eq_iff_iff, h.flag]
  cases s.coroutines <;> simp

theorem queue_append (h : Sound s) (frame : α) : (s.append frame).queue = s.queue.push frame := by
  have hw : s.queue.writing = s.writing := isSome_head h
  unfold WriteQueue.push
  split_ifs with hflag
  · rw [hw] at hflag
    simp [Session.queue, Session.append, hflag]
  · rw [hw] at hflag
    have hnone : s.coroutines = [] := by
      by_contra hne
      exact hflag (h.flag.mpr hne)
    simp [Session.queue, Session.append, hflag, hnone]

theorem do_write_queue (h : Sound s) (hc : s.coroutines[n]? = some c) :
    s.queue.do_write = some c := by
  show s.coroutines.head? = some c
  rw [(coroutines_eq h hc).2]
  rfl

theorem queue_loop (h : Sound s) (hc : s.coroutines[n]? = some c) :
    (s.loop n).queue = s.queue.next := by
  obtain ⟨rfl, hone⟩ := coroutines_eq h hc
  unfold Session.loop WriteQueue.next Session.queue
  dsimp only
  rw [hone]
  cases s.write_queue <;> rfl

theorem moves_of_step {a : Label β} (h : Sound s) (hs : s.step text a = some s') :
    Moves text s.queue s'.queue a := by
  cases a with
  | append b =>
    obtain rfl := append_eq_some hs
    dsimp only [Moves]
    cases text b with
    | none => rfl
    | some frame => exact queue_append h frame
  | start n =>
    obtain ⟨hc, rfl⟩ := start_eq_some hs
    dsimp only [Moves, WriteQueue.start]
    rw [queue_loop h hc, do_write_queue h hc]
  | written n =>
    obtain ⟨frame, hc, rfl⟩ := written_eq_some hs
    dsimp only [Moves, WriteQueue.written, WriteQueue.in_flight]
    rw [queue_loop h hc, do_write_queue h hc]
    rfl
  | failed n =>
    obtain ⟨frame, hc, rfl⟩ := failed_eq_some hs
    obtain ⟨rfl, hone⟩ := coroutines_eq h hc
    dsimp only [Moves, WriteQueue.failed, WriteQueue.in_flight]
    rw [do_write_queue h hc]
    simp [Session.queue, Session.fail, hone]

/-- The structure with room for one coroutine makes the same steps. -/
theorem the_write_queue_refines {as : List (Label β)} (hr : (session text).run as = some s)
    {a : Label β} (hs : s.step text a = some s') : Moves text s.queue s'.queue a :=
  moves_of_step (sound_run hr) hs

/-! ## The law -/

/-- In each state of each session of either kind. -/
theorem no_wake_up_is_lost (proto : Proto) (parse : ParseFromArray) :
    (∀ as s, (tcp proto parse).run as = some s → Sound s) ∧
      ∀ as s, (ws parse).run as = some s → Sound s :=
  ⟨fun _ _ hr => sound_run hr, fun _ _ hr => sound_run hr⟩

/-- Two pongs, and the second write fails. -/
def two_pongs : List (Label Append) :=
  [.append .pong, .start 0, .append .pong, .written 0, .failed 0]

theorem the_writer_of_two_pongs :
    ((ws fun _ => none).run two_pongs).isSome ∧
      ∀ s ∈ (ws fun _ => none).run two_pongs, Sound s :=
  ⟨by decide +kernel,
    fun s hs => (no_wake_up_is_lost chat_frames.proto3 fun _ => none).2 two_pongs s hs⟩

end loomic.do_write
