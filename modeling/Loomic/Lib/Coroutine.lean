-- Coroutines: a computation that returns, throws, or waits until a call is
-- answered and goes on with the answer. The type of an answer depends on its
-- call. A coroutine can be run to its end, or one answer at a time.

namespace coroutines

universe t u v w

/-- What is left of a computation when it stands at its next `co_await`. -/
inductive Coroutine (Call : Type u) (Answer : Call → Type v) (ρ : Type w)
  | ret (r : ρ)
  | throw
  | await (call : Call) (resume : Answer call → Coroutine Call Answer ρ)

variable {Call : Type u} {Answer : Call → Type v} {ρ σ : Type w}

/-- The value, or an exception. -/
def Coroutine.of {α : Type t} (x : Option α) (k : α → Coroutine Call Answer ρ) :
    Coroutine Call Answer ρ :=
  match x with
  | none => .throw
  | some a => k a

/-- One coroutine after the other. -/
def Coroutine.bind : Coroutine Call Answer ρ → (ρ → Coroutine Call Answer σ) →
    Coroutine Call Answer σ
  | .ret r, k => k r
  | .throw, _ => .throw
  | .await call resume, k => .await call fun answer => (resume answer).bind k

/-- `try { .. } catch (...) { .. }` around a coroutine. -/
def Coroutine.catch : Coroutine Call Answer ρ → Coroutine Call Answer ρ →
    Coroutine Call Answer ρ
  | .ret r, _ => .ret r
  | .throw, h => h
  | .await call resume, h => .await call fun answer => (resume answer).catch h

/-- The calls of a loop that does not look at their answers. -/
def Coroutine.each (calls : List Call) (k : Coroutine Call Answer ρ) : Coroutine Call Answer ρ :=
  calls.foldr (fun call rest => .await call fun _ => rest) k

/-- The coroutine over a larger set of calls. -/
def Coroutine.lift {Call' : Type u} {Answer' : Call' → Type v} (f : Call → Call')
    (g : ∀ call, Answer' (f call) → Answer call) :
    Coroutine Call Answer ρ → Coroutine Call' Answer' ρ
  | .ret r => .ret r
  | .throw => .throw
  | .await call resume => .await (f call) fun answer => (resume (g call answer)).lift f g

/-! ## Running to the end -/

/-- What the environment answers to the calls. A call that is made twice may be answered in
two ways, so an answer depends on the number of calls before it. -/
abbrev Answers (Call : Type u) (Answer : Call → Type v) := Nat → (call : Call) → Answer call

/-- The answers to the calls after the next one. -/
def Answers.tail (answers : Answers Call Answer) : Answers Call Answer := fun n => answers (n + 1)

theorem tail_constant (answer : (call : Call) → Answer call) :
    (Answers.tail fun _ => answer) = fun _ => answer := rfl

/-- The answers as the smaller set of calls gets them. -/
def Answers.pull {Call' : Type u} {Answer' : Call' → Type v} (f : Call → Call')
    (g : ∀ call, Answer' (f call) → Answer call) (answers : Answers Call' Answer') :
    Answers Call Answer :=
  fun n call => g call (answers n (f call))

/-- The result, or `none` for an exception. -/
def Coroutine.run : Coroutine Call Answer ρ → Answers Call Answer → Option ρ
  | .ret r, _ => some r
  | .throw, _ => none
  | .await call resume, answers => (resume (answers 0 call)).run answers.tail

@[simp] theorem run_ret (r : ρ) (answers : Answers Call Answer) :
    (Coroutine.ret r).run answers = some r := rfl

@[simp] theorem run_throw (answers : Answers Call Answer) :
    (Coroutine.throw : Coroutine Call Answer ρ).run answers = none := rfl

@[simp] theorem run_await (call : Call) (resume : Answer call → Coroutine Call Answer ρ)
    (answers : Answers Call Answer) :
    (Coroutine.await call resume).run answers = (resume (answers 0 call)).run answers.tail := rfl

/-- The calls that are made until the coroutine ends. -/
def Coroutine.calls : Coroutine Call Answer ρ → Answers Call Answer → List Call
  | .ret _, _ => []
  | .throw, _ => []
  | .await call resume, answers => call :: (resume (answers 0 call)).calls answers.tail

@[simp] theorem calls_ret (r : ρ) (answers : Answers Call Answer) :
    (Coroutine.ret r).calls answers = [] := rfl

@[simp] theorem calls_await (call : Call) (resume : Answer call → Coroutine Call Answer ρ)
    (answers : Answers Call Answer) :
    (Coroutine.await call resume).calls answers =
      call :: (resume (answers 0 call)).calls answers.tail := rfl

theorem run_of_isSome {α : Type t} {x : Option α} {k : α → Coroutine Call Answer ρ}
    {answers : Answers Call Answer} :
    ((Coroutine.of x k).run answers).isSome ↔ ∃ a, x = some a ∧ ((k a).run answers).isSome := by
  cases x with
  | none => simp [Coroutine.of]
  | some a => simp [Coroutine.of]

/-- What is caught: the result is the one of the body, or of the handler. -/
theorem run_catch_ret (x : Coroutine Call Answer ρ) (r : ρ) (answers : Answers Call Answer) :
    (x.catch (.ret r)).run answers = some ((x.run answers).getD r) := by
  induction x generalizing answers with
  | ret r' => rfl
  | throw => rfl
  | await call resume ih => exact ih _ answers.tail

/-- A result that is used once. -/
theorem run_bind_ret (x : Coroutine Call Answer ρ) (f : ρ → σ) (answers : Answers Call Answer) :
    (x.bind fun r => .ret (f r)).run answers = (x.run answers).map f := by
  induction x generalizing answers with
  | ret r => rfl
  | throw => rfl
  | await call resume ih => exact ih _ answers.tail

theorem run_lift {Call' : Type u} {Answer' : Call' → Type v} (f : Call → Call')
    (g : ∀ call, Answer' (f call) → Answer call) (x : Coroutine Call Answer ρ)
    (answers : Answers Call' Answer') :
    (x.lift f g).run answers = x.run (answers.pull f g) := by
  induction x generalizing answers with
  | ret r => rfl
  | throw => rfl
  | await call resume ih => exact ih _ answers.tail

/-! ## Coroutines that do not throw -/

/-- Whatever is answered, the coroutine returns. -/
def Coroutine.Returns (x : Coroutine Call Answer ρ) : Prop :=
  ∀ answers, (x.run answers).isSome

theorem returns_ret (r : ρ) : (Coroutine.ret r : Coroutine Call Answer ρ).Returns :=
  fun _ => rfl

theorem returns_await {call : Call} {resume : Answer call → Coroutine Call Answer ρ}
    (h : ∀ answer, (resume answer).Returns) : (Coroutine.await call resume).Returns :=
  fun answers => h (answers 0 call) answers.tail

/-- A loop of calls returns when what follows it does. -/
theorem returns_each {calls : List Call} {k : Coroutine Call Answer ρ} (hk : k.Returns) :
    (Coroutine.each calls k).Returns := by
  induction calls with
  | nil => exact hk
  | cons call calls ih => exact returns_await fun _ => ih

theorem returns_lift {Call' : Type u} {Answer' : Call' → Type v} {f : Call → Call'}
    {g : ∀ call, Answer' (f call) → Answer call} {x : Coroutine Call Answer ρ}
    (hx : x.Returns) : (x.lift f g).Returns := by
  intro answers
  rw [run_lift]
  exact hx _

end coroutines
