-- Coroutines that share a state, and contracts for them. A contract says which
-- calls a coroutine may make after what has happened to it, and which answers
-- it may count on. Where the shared state answers so whenever all coroutines
-- keep to what they may do, each of them can be checked on its own.
import Loomic.Lib.Coroutine
import Loomic.Lib.Machine
import Mathlib.Data.List.InsertIdx
import Mathlib.Data.List.Perm.Basic

open machines

namespace coroutines

universe u v w

variable {Call : Type u} {Answer : Call → Type v} {ρ σ ε : Type w}

/-! ## Exceptions with a value -/

/-- The next statement of a coroutine that may throw an `ε`. -/
def Coroutine.next (x : Coroutine Call Answer (Except ε ρ))
    (k : ρ → Coroutine Call Answer (Except ε σ)) : Coroutine Call Answer (Except ε σ) :=
  x.bind fun
    | .ok r => k r
    | .error e => .ret (.error e)

/-- `try { .. } catch`, with what the handlers do. They may throw in turn. -/
def Coroutine.handle (x : Coroutine Call Answer (Except ε ρ))
    (handler : ε → Coroutine Call Answer (Except ε ρ)) : Coroutine Call Answer (Except ε ρ) :=
  x.bind fun
    | .ok r => .ret (.ok r)
    | .error e => handler e

/-! ## Contracts -/

/-- A call, and how it was answered. -/
structure Event (Call : Type u) (Answer : Call → Type v) where
  call : Call
  answer : Answer call

/-- What has happened to a coroutine, the last event first. -/
abbrev History (Call : Type u) (Answer : Call → Type v) := List (Event Call Answer)

structure Contract (Call : Type u) (Answer : Call → Type v) where
  guarantee : History Call Answer → Call → Prop
  rely : History Call Answer → (call : Call) → Answer call → Prop

variable {C : Contract Call Answer} {h : History Call Answer}

/-- Each event was within the contract when it happened. -/
def Contract.Kept (C : Contract Call Answer) : History Call Answer → Prop
  | [] => True
  | e :: h => C.guarantee h e.call ∧ C.rely h e.call e.answer ∧ C.Kept h

/-- An event somewhere in the past was within the contract. -/
theorem kept_split {later earlier : History Call Answer} {e : Event Call Answer}
    (hk : C.Kept (later ++ e :: earlier)) :
    C.guarantee earlier e.call ∧ C.rely earlier e.call e.answer ∧ C.Kept earlier := by
  induction later with
  | nil => exact hk
  | cons e' later ih => exact ih hk.2.2

/-- Whatever it is answered within the contract, the coroutine goes on within it, does not throw,
and ends with the postcondition. -/
def Coroutine.Keeps (C : Contract Call Answer) (post : History Call Answer → ρ → Prop) :
    Coroutine Call Answer ρ → History Call Answer → Prop
  | .ret r, h => post h r
  | .throw, _ => False
  | .await call resume, h => C.guarantee h call ∧
      ∀ answer, C.rely h call answer → (resume answer).Keeps C post (⟨call, answer⟩ :: h)

theorem keeps_bind {post : History Call Answer → σ → Prop} (x : Coroutine Call Answer ρ)
    (k : ρ → Coroutine Call Answer σ) :
    (x.bind k).Keeps C post h ↔ x.Keeps C (fun h r => (k r).Keeps C post h) h := by
  induction x generalizing h with
  | ret r => rfl
  | throw => rfl
  | await call resume ih =>
    exact and_congr_right fun _ => forall_congr' fun answer => imp_congr_right fun _ => ih answer

theorem keeps_next {post : History Call Answer → Except ε σ → Prop}
    (x : Coroutine Call Answer (Except ε ρ)) (k : ρ → Coroutine Call Answer (Except ε σ)) :
    (x.next k).Keeps C post h ↔
      x.Keeps C (fun h r => match r with
        | .ok r => (k r).Keeps C post h
        | .error e => post h (.error e)) h := by
  unfold Coroutine.next
  rw [keeps_bind]
  apply iff_of_eq
  congr 1
  funext h r
  cases r <;> rfl

theorem keeps_handle {post : History Call Answer → Except ε ρ → Prop}
    (x : Coroutine Call Answer (Except ε ρ)) (handler : ε → Coroutine Call Answer (Except ε ρ)) :
    (x.handle handler).Keeps C post h ↔
      x.Keeps C (fun h r => match r with
        | .ok r => post h (.ok r)
        | .error e => (handler e).Keeps C post h) h := by
  unfold Coroutine.handle
  rw [keeps_bind]
  apply iff_of_eq
  congr 1
  funext h r
  cases r <;> rfl

theorem keeps_mono {post post' : History Call Answer → ρ → Prop} {x : Coroutine Call Answer ρ}
    (hpost : ∀ h r, post h r → post' h r) (hx : x.Keeps C post h) : x.Keeps C post' h := by
  induction x generalizing h with
  | ret r => exact hpost h r hx
  | throw => exact hx
  | await call resume ih =>
    exact ⟨hx.1, fun answer hanswer => ih answer (hx.2 answer hanswer)⟩

/-! ## Threads -/

/-- A coroutine in progress: what it was started with, what has happened to it, and what is left
of it. -/
structure Thread (Call : Type u) (Answer : Call → Type v) (β ρ : Type*) where
  start : β
  history : History Call Answer
  program : Coroutine Call Answer ρ

/-- The shared state, the coroutines in progress, and those that have returned. -/
structure Threads (Call : Type u) (Answer : Call → Type v) (σ β ρ : Type*) where
  shared : σ
  running : List (Thread Call Answer β ρ)
  ended : List (β × History Call Answer × ρ)

inductive Threads.Label (Call : Type u) (Answer : Call → Type v) (β : Type*)
  | spawn (b : β)
  | step (n : Nat) (answer : (call : Call) → Answer call)
  | finish (n : Nat)

/-- How a shared state answers a call, and what becomes of it. What is outside the program is
answered as the environment wants. `none` when the call has to wait. -/
abbrev Serve (Call : Type u) (Answer : Call → Type v) (σ : Type*) :=
  σ → (call : Call) → Answer call → Option (Answer call × σ)

section Threads

variable {β : Type*} {τ : Type*} (body : β → Coroutine Call Answer ρ) (serve : Serve Call Answer τ)

def Threads.step (w : Threads Call Answer τ β ρ) :
    Threads.Label Call Answer β → Option (Threads Call Answer τ β ρ)
  | .spawn b => some { w with running := w.running ++ [⟨b, [], body b⟩] }
  | .step n answer =>
    match w.running[n]? with
    | some ⟨b, h, .await call resume⟩ => (serve w.shared call (answer call)).map fun (a, shared) =>
        { w with
          shared := shared
          running := w.running.set n ⟨b, ⟨call, a⟩ :: h, resume a⟩ }
    | _ => none
  | .finish n =>
    match w.running[n]? with
    | some ⟨b, h, .ret r⟩ => some
        { w with
          running := w.running.eraseIdx n
          ended := w.ended ++ [(b, h, r)] }
    | _ => none

def threads (start : τ) : Machine (Threads Call Answer τ β ρ) (Threads.Label Call Answer β) where
  start := { shared := start, running := [], ended := [] }
  step := Threads.step body serve

/-- What the threads were started with, and what has happened to them. -/
def Threads.histories (w : Threads Call Answer τ β ρ) : List (β × History Call Answer) :=
  w.running.map fun t => (t.start, t.history)

variable {body serve}

/-- What a step can do. -/
theorem threads_step_cases {w w' : Threads Call Answer τ β ρ} {l : Threads.Label Call Answer β}
    (h : w.step body serve l = some w') :
    (∃ b, l = .spawn b ∧ w' = { w with running := w.running ++ [⟨b, [], body b⟩] }) ∨
    (∃ n answer b hist call resume a s, l = .step n answer ∧
      w.running[n]? = some ⟨b, hist, .await call resume⟩ ∧
      serve w.shared call (answer call) = some (a, s) ∧
      w' = { w with shared := s, running := w.running.set n ⟨b, ⟨call, a⟩ :: hist, resume a⟩ }) ∨
    ∃ n b hist r, l = .finish n ∧ w.running[n]? = some ⟨b, hist, .ret r⟩ ∧
      w' = { w with running := w.running.eraseIdx n, ended := w.ended ++ [(b, hist, r)] } := by
  cases l with
  | spawn b => exact .inl ⟨b, rfl, (Option.some.inj h).symm⟩
  | step n answer =>
    dsimp only [Threads.step] at h
    split at h
    · rename_i b hist call resume ht
      obtain ⟨⟨a, s⟩, hserve, rfl⟩ := Option.map_eq_some_iff.mp h
      exact .inr (.inl ⟨n, answer, b, hist, call, resume, a, s, rfl, ht, hserve, rfl⟩)
    · cases h
  | finish n =>
    dsimp only [Threads.step] at h
    split at h
    · rename_i b hist r ht
      exact .inr (.inr ⟨n, b, hist, r, rfl, ht, (Option.some.inj h).symm⟩)
    · cases h

/-! ## The rule -/

/-- A contract for each thread, and an invariant of the shared state and the histories, in any
order: the state answers calls within the contracts as they count on, and the invariant is kept
by all that a thread may do. -/
structure Discipline (body : β → Coroutine Call Answer ρ) (serve : Serve Call Answer τ)
    (start : τ) where
  contract : β → Contract Call Answer
  post : β → History Call Answer → ρ → Prop
  inv : τ → List (β × History Call Answer) → Prop
  body_keeps : ∀ b, (body b).Keeps (contract b) (post b) []
  inv_perm : ∀ {s hs hs'}, hs.Perm hs' → inv s hs → inv s hs'
  inv_start : inv start []
  inv_spawn : ∀ {s hs} b, inv s hs → inv s ((b, []) :: hs)
  inv_serve : ∀ {s hs b h call answer a s'}, inv s ((b, h) :: hs) →
    (contract b).guarantee h call → serve s call answer = some (a, s') →
      (contract b).rely h call a ∧ inv s' ((b, ⟨call, a⟩ :: h) :: hs)
  inv_finish : ∀ {s hs b h r}, inv s ((b, h) :: hs) → post b h r → inv s hs

/-- Each thread has kept its contract, and those in progress go on to keep it. -/
structure Discipline.Holds {start : τ} (D : Discipline body serve start)
    (w : Threads Call Answer τ β ρ) : Prop where
  inv : D.inv w.shared w.histories
  kept : ∀ t ∈ w.running, (D.contract t.start).Kept t.history
  keeps : ∀ t ∈ w.running, t.program.Keeps (D.contract t.start) (D.post t.start) t.history
  ended : ∀ e ∈ w.ended, (D.contract e.1).Kept e.2.1 ∧ D.post e.1 e.2.1 e.2.2

/-- The history of a thread, and the others. -/
theorem histories_perm {w : Threads Call Answer τ β ρ} {n : Nat} {t : Thread Call Answer β ρ}
    (ht : w.running[n]? = some t) :
    w.histories.Perm ((t.start, t.history) :: w.histories.eraseIdx n) := by
  have hn : w.histories[n]? = some (t.start, t.history) := by simp [Threads.histories, ht]
  obtain ⟨hlt, hget⟩ := List.getElem?_eq_some_iff.mp hn
  rw [← hget]
  exact (List.getElem_cons_eraseIdx_perm hlt).symm

theorem Discipline.holds_step {start : τ} (D : Discipline body serve start)
    {w w' : Threads Call Answer τ β ρ} {l : Threads.Label Call Answer β} (hw : D.Holds w)
    (h : w.step body serve l = some w') : D.Holds w' := by
  rcases threads_step_cases h with ⟨b, rfl, rfl⟩ |
    ⟨n, answer, b, hist, call, resume, a, s, rfl, ht, hserve, rfl⟩ | ⟨n, b, hist, r, rfl, ht, rfl⟩
  · refine ⟨?_, ?_, ?_, hw.ended⟩
    · apply D.inv_perm _ (D.inv_spawn b hw.inv)
      simpa [Threads.histories] using (List.perm_append_singleton _ _).symm
    · intro t hmem
      rcases List.mem_append.mp hmem with hmem | hmem
      · exact hw.kept t hmem
      · rw [List.mem_singleton.mp hmem]
        trivial
    · intro t hmem
      rcases List.mem_append.mp hmem with hmem | hmem
      · exact hw.keeps t hmem
      · rw [List.mem_singleton.mp hmem]
        exact D.body_keeps b
  · have hmem := List.mem_of_getElem? ht
    obtain ⟨hguarantee, hresume⟩ := hw.keeps _ hmem
    have hfirst := D.inv_perm (histories_perm ht) hw.inv
    obtain ⟨hrely, hinv⟩ := D.inv_serve hfirst hguarantee hserve
    refine ⟨?_, ?_, ?_, hw.ended⟩
    · apply D.inv_perm _ hinv
      have hlt : n < w.histories.length := by
        rw [Threads.histories, List.length_map]
        exact (List.getElem?_eq_some_iff.mp ht).1
      simpa [Threads.histories, List.map_set] using
        (List.set_perm_cons_eraseIdx hlt (b, ⟨call, a⟩ :: hist)).symm
    · intro t hset
      rcases List.mem_or_eq_of_mem_set hset with hold | rfl
      · exact hw.kept t hold
      · exact ⟨hguarantee, hrely, hw.kept _ hmem⟩
    · intro t hset
      rcases List.mem_or_eq_of_mem_set hset with hold | rfl
      · exact hw.keeps t hold
      · exact hresume a hrely
  · have hmem := List.mem_of_getElem? ht
    have hpost : D.post b hist r := hw.keeps _ hmem
    refine ⟨?_, ?_, ?_, ?_⟩
    · have hrest := D.inv_finish (D.inv_perm (histories_perm ht) hw.inv) hpost
      simpa [Threads.histories, List.eraseIdx_map] using hrest
    · exact fun t hold => hw.kept t (List.mem_of_mem_eraseIdx hold)
    · exact fun t hold => hw.keeps t (List.mem_of_mem_eraseIdx hold)
    · intro e he
      rcases List.mem_append.mp he with he | he
      · exact hw.ended e he
      · rw [List.mem_singleton.mp he]
        exact ⟨hw.kept _ hmem, hpost⟩

/-- In every run the contracts are kept. -/
theorem Discipline.holds {start : τ} (D : Discipline body serve start)
    {as : List (Threads.Label Call Answer β)} {w : Threads Call Answer τ β ρ}
    (hr : (threads body serve start).run as = some w) : D.Holds w :=
  Machine.invariant (M := threads body serve start)
    ⟨D.inv_start, fun _ h => absurd h List.not_mem_nil, fun _ h => absurd h List.not_mem_nil,
      fun _ h => absurd h List.not_mem_nil⟩
    (fun _ _ _ hw hs => D.holds_step hw hs) hr

end Threads

end coroutines
