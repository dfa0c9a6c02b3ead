-- Permissions: which calls a coroutine may make after what it has been answered,
-- and what holds of its result. Unlike a contract, a permission allows for
-- exceptions, and does not count on any answer.
import Loomic.Lib.Threads

namespace coroutines

universe u v w t

variable {Call : Type u} {Answer : Call → Type v} {ρ : Type w}

/-! ## What has happened -/

/-- The events of a run to its end, before those that have happened already. -/
def Coroutine.history : Coroutine Call Answer ρ → Answers Call Answer → History Call Answer →
    History Call Answer
  | .ret _, _, h => h
  | .throw, _, h => h
  | .await call resume, answers, h =>
    (resume (answers 0 call)).history answers.tail (⟨call, answers 0 call⟩ :: h)

/-- Each event was permitted by those before it. -/
def Lawful (permit : History Call Answer → Call → Prop) : History Call Answer → Prop
  | [] => True
  | e :: h => permit h e.call ∧ Lawful permit h

theorem lawful_split {permit : History Call Answer → Call → Prop}
    {later earlier : History Call Answer} {e : Event Call Answer}
    (h : Lawful permit (later ++ e :: earlier)) : permit earlier e.call := by
  induction later with
  | nil => exact h.1
  | cons e' later ih => exact ih h.2

/-! ## Coroutines that keep to what is permitted -/

/-- Whatever is answered, each call is permitted by what has happened before it, and the result
has the postcondition. -/
def Coroutine.Obeys (permit : History Call Answer → Call → Prop)
    (post : History Call Answer → ρ → Prop) :
    Coroutine Call Answer ρ → History Call Answer → Prop
  | .ret r, h => post h r
  | .throw, _ => True
  | .await call resume, h =>
    permit h call ∧ ∀ answer, (resume answer).Obeys permit post (⟨call, answer⟩ :: h)

variable {permit : History Call Answer → Call → Prop} {post : History Call Answer → ρ → Prop}
  {h : History Call Answer}

/-- What a coroutine that obeys has done when it ends. -/
theorem lawful_history {x : Coroutine Call Answer ρ} (hx : x.Obeys permit post h)
    (hh : Lawful permit h) (answers : Answers Call Answer) :
    Lawful permit (x.history answers h) := by
  induction x generalizing h answers with
  | ret r => exact hh
  | throw => exact hh
  | await call resume ih => exact ih _ (hx.2 _) ⟨hx.1, hh⟩ _

theorem post_of_run {x : Coroutine Call Answer ρ} (hx : x.Obeys permit post h)
    {answers : Answers Call Answer} {r : ρ} (hr : x.run answers = some r) :
    post (x.history answers h) r := by
  induction x generalizing h answers with
  | ret r' =>
    obtain rfl := Option.some.inj hr
    exact hx
  | throw => cases hr
  | await call resume ih => exact ih _ (hx.2 _) hr

/-! ## The rules -/

theorem obeys_await {call : Call} {resume : Answer call → Coroutine Call Answer ρ}
    (hcall : permit h call)
    (hresume : ∀ answer, (resume answer).Obeys permit post (⟨call, answer⟩ :: h)) :
    (Coroutine.await call resume).Obeys permit post h :=
  ⟨hcall, hresume⟩

theorem obeys_of {α : Type t} {x : Option α} {k : α → Coroutine Call Answer ρ}
    (hk : ∀ a, x = some a → (k a).Obeys permit post h) :
    (Coroutine.of x k).Obeys permit post h := by
  cases x with
  | none => trivial
  | some a => exact hk a rfl

theorem obeys_ite {c : Prop} [Decidable c] {x y : Coroutine Call Answer ρ}
    (hx : c → x.Obeys permit post h) (hy : ¬ c → y.Obeys permit post h) :
    (if c then x else y).Obeys permit post h := by
  split
  · exact hx ‹c›
  · exact hy ‹¬ c›

theorem obeys_mono {post' : History Call Answer → ρ → Prop} {x : Coroutine Call Answer ρ}
    (hpost : ∀ h r, post h r → post' h r) (hx : x.Obeys permit post h) :
    x.Obeys permit post' h := by
  induction x generalizing h with
  | ret r => exact hpost h r hx
  | throw => trivial
  | await call resume ih => exact obeys_await hx.1 fun answer => ih answer (hx.2 answer)

theorem obeys_bind {σ : Type w} {post : History Call Answer → σ → Prop}
    {x : Coroutine Call Answer ρ} {k : ρ → Coroutine Call Answer σ}
    (hx : x.Obeys permit (fun h r => (k r).Obeys permit post h) h) :
    (x.bind k).Obeys permit post h := by
  induction x generalizing h with
  | ret r => exact hx
  | throw => trivial
  | await call resume ih => exact obeys_await hx.1 fun answer => ih answer (hx.2 answer)

/-- The handler may start wherever the body throws. -/
theorem obeys_catch {x handler : Coroutine Call Answer ρ} (hx : x.Obeys permit post h)
    (hhandler : ∀ h, handler.Obeys permit post h) : (x.catch handler).Obeys permit post h := by
  induction x generalizing h with
  | ret r => exact hx
  | throw => exact hhandler h
  | await call resume ih => exact obeys_await hx.1 fun answer => ih answer (hx.2 answer)

/-- The calls of a loop are made after the history, with those before them in the loop, and all
of them have been made when it ends. -/
theorem obeys_each {calls : List Call} {k : Coroutine Call Answer ρ}
    (hcalls : ∀ call ∈ calls, ∀ done, permit (done ++ h) call)
    (hk : ∀ done : History Call Answer, done.map Event.call = calls.reverse →
      k.Obeys permit post (done ++ h)) : (Coroutine.each calls k).Obeys permit post h := by
  induction calls generalizing h with
  | nil => exact hk [] rfl
  | cons call calls ih =>
    refine obeys_await (hcalls call List.mem_cons_self []) fun answer => ih ?_ ?_
    · intro call' hmem done
      rw [List.append_cons]
      exact hcalls call' (List.mem_cons_of_mem _ hmem) _
    · intro done hdone
      rw [List.append_cons]
      exact hk _ (by simp [hdone])

/-- An event among a smaller set of calls, among the larger one. -/
def Event.lift {Call' : Type u} {Answer' : Call' → Type v} (f : Call → Call')
    (back : ∀ call, Answer call → Answer' (f call)) (e : Event Call Answer) :
    Event Call' Answer' :=
  ⟨f e.call, back e.call e.answer⟩

/-- A lifted coroutine obeys what it obeys among its own calls. -/
theorem obeys_lift {Call' : Type u} {Answer' : Call' → Type v} {f : Call → Call'}
    {g : ∀ call, Answer' (f call) → Answer call} {back : ∀ call, Answer call → Answer' (f call)}
    (hback : ∀ call answer, back call (g call answer) = answer)
    {permit : History Call' Answer' → Call' → Prop} {post : History Call' Answer' → ρ → Prop}
    {x : Coroutine Call Answer ρ}
    (hx : x.Obeys (fun h call => permit (h.map (Event.lift f back)) (f call))
      (fun h => post (h.map (Event.lift f back))) h) :
    (x.lift f g).Obeys permit post (h.map (Event.lift f back)) := by
  induction x generalizing h with
  | ret r => exact hx
  | throw => trivial
  | await call resume ih =>
    refine obeys_await hx.1 fun answer => ?_
    have hnext := ih (g call answer) (hx.2 _)
    rwa [List.map_cons, Event.lift, hback] at hnext

end coroutines
