-- The write queue that both kinds of session have (enqueue and do_write of
-- Session.cpp and WebSocketSession.cpp): frames to write, and one coroutine
-- that writes them while the flag `writing_` is set.
import Mathlib.Data.Option.Basic

namespace loomic.queue

/-- The coroutine `do_write`: spawned but not yet run, or in the `async_write` of a frame that
it has taken from the queue. -/
inductive DoWrite (α : Type)
  | spawned
  | writing (frame : α)
  deriving DecidableEq

/-- The members of a session. The flag is set exactly while there is a coroutine, so a push
never spawns a second one. -/
structure WriteQueue (α : Type) where
  write_queue : List α
  writing : Bool
  do_write : Option (DoWrite α)
  writing_eq : writing = do_write.isSome

variable {α : Type}

def WriteQueue.empty : WriteQueue α :=
  { write_queue := [], writing := false, do_write := none, writing_eq := rfl }

/-- The end of `enqueue`: append, and spawn `do_write` if it is not there. -/
def WriteQueue.push (q : WriteQueue α) (frame : α) : WriteQueue α :=
  if q.writing then
    { q with write_queue := q.write_queue ++ [frame] }
  else
    { write_queue := q.write_queue ++ [frame], writing := true, do_write := some .spawned
      writing_eq := rfl }

/-- The test of the loop of `do_write`: take the next frame, or clear the flag and end. -/
def WriteQueue.next (q : WriteQueue α) : WriteQueue α :=
  match q.write_queue with
  | [] => .empty
  | frame :: rest =>
    { write_queue := rest, writing := true, do_write := some (.writing frame), writing_eq := rfl }

/-- The coroutine runs for the first time. -/
def WriteQueue.start (q : WriteQueue α) : Option (WriteQueue α) :=
  match q.do_write with
  | some .spawned => some q.next
  | _ => none

/-- The frame of the `async_write` that is outstanding. -/
def WriteQueue.in_flight (q : WriteQueue α) : Option α :=
  match q.do_write with
  | some (.writing frame) => some frame
  | _ => none

/-- The `async_write` is done. -/
def WriteQueue.written (q : WriteQueue α) : Option (WriteQueue α) :=
  q.in_flight.map fun _ => q.next

/-- The `async_write` throws: the frame is gone, and the queue stays as it is. -/
def WriteQueue.failed (q : WriteQueue α) : Option (WriteQueue α) :=
  q.in_flight.map fun _ =>
    { write_queue := q.write_queue, writing := false, do_write := none, writing_eq := rfl }

variable {q q' : WriteQueue α} {f : α}

@[simp] theorem in_flight_empty : (WriteQueue.empty : WriteQueue α).in_flight = none := rfl

@[simp] theorem write_queue_empty : (WriteQueue.empty : WriteQueue α).write_queue = [] := rfl

@[simp] theorem write_queue_push : (q.push f).write_queue = q.write_queue ++ [f] := by
  unfold WriteQueue.push
  split <;> rfl

/-- A push leaves the write that is outstanding alone. -/
@[simp] theorem in_flight_push : (q.push f).in_flight = q.in_flight := by
  unfold WriteQueue.push
  split
  · rfl
  · rename_i h
    have hnone : q.do_write = none := by
      have := q.writing_eq
      simpa [h] using this
    simp [WriteQueue.in_flight, hnone]

@[simp] theorem in_flight_next : q.next.in_flight = q.write_queue.head? := by
  unfold WriteQueue.next
  split <;> rename_i h <;> simp [h, WriteQueue.in_flight, WriteQueue.empty]

@[simp] theorem write_queue_next : q.next.write_queue = q.write_queue.tail := by
  unfold WriteQueue.next
  split <;> rename_i h <;> simp [h, WriteQueue.empty]

theorem start_eq_some (h : q.start = some q') :
    q.do_write = some .spawned ∧ q.in_flight = none ∧ q' = q.next := by
  unfold WriteQueue.start at h
  split at h <;> rename_i hd
  · exact ⟨hd, by simp [WriteQueue.in_flight, hd], (Option.some.inj h).symm⟩
  · simp at h

theorem written_eq_some (h : q.written = some q') :
    (∃ f, q.in_flight = some f) ∧ q' = q.next := by
  obtain ⟨f, hf, rfl⟩ := Option.map_eq_some_iff.mp h
  exact ⟨⟨f, hf⟩, rfl⟩

theorem failed_eq_some (h : q.failed = some q') :
    (∃ f, q.in_flight = some f) ∧ q'.in_flight = none ∧ q'.write_queue = q.write_queue := by
  obtain ⟨f, hf, rfl⟩ := Option.map_eq_some_iff.mp h
  exact ⟨⟨f, hf⟩, rfl, rfl⟩

end loomic.queue
