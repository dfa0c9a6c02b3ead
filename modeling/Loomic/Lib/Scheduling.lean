-- Tasks: coroutines that share a state. A task runs from one call to the
-- next in one step, so what others do happens between its calls. What is
-- known of a task at a call must hold whatever the others do meanwhile.
import Loomic.Lib.Coroutine
import Loomic.Lib.Machine

open coroutines machines

namespace scheduling

/-- A shared state `σ`, the names `ι` of the tasks, the choices `κ` that the environment has
when it answers a call, and the events `η` that are no task. -/
structure System (σ ι κ η : Type) (Call : Type) (Answer : Call → Type) (ρ : Type) where
  start : σ
  spawn : ι → Coroutine Call Answer ρ
  exec : Nat → ι → κ → (call : Call) → σ → Option (Answer call × σ)
  env : η → σ → Option σ

/-- The tasks in the order in which they were spawned, with what is left of each. -/
structure Pool (σ ι : Type) (Call : Type) (Answer : Call → Type) (ρ : Type) where
  shared : σ
  tasks : List (ι × Coroutine Call Answer ρ)

/-- The task has come to its end. -/
def Ended {Call : Type} {Answer : Call → Type} {ρ : Type} : Coroutine Call Answer ρ → Prop
  | .await _ _ => False
  | .ret _ | .throw => True

instance decidable_ended {Call : Type} {Answer : Call → Type} {ρ : Type} :
    ∀ x : Coroutine Call Answer ρ, Decidable (Ended x)
  | .await _ _ => isFalse id
  | .ret _ | .throw => isTrue trivial

/-- No task is in flight. -/
def Pool.Settled {σ ι Call : Type} {Answer : Call → Type} {ρ : Type}
    (s : Pool σ ι Call Answer ρ) : Prop := ∀ task ∈ s.tasks, Ended task.2

instance decidable_settled {σ ι Call : Type} {Answer : Call → Type} {ρ : Type}
    (s : Pool σ ι Call Answer ρ) : Decidable s.Settled := by
  unfold Pool.Settled
  infer_instance

inductive Label (ι κ η : Type)
  | spawn (n : ι)
  | resume (i : Nat) (choice : κ)
  | env (e : η)

variable {σ ι κ η : Type} {Call : Type} {Answer : Call → Type} {ρ : Type}

def System.step (S : System σ ι κ η Call Answer ρ) (s : Pool σ ι Call Answer ρ) :
    Label ι κ η → Option (Pool σ ι Call Answer ρ)
  | .spawn n => some { s with tasks := s.tasks ++ [(n, S.spawn n)] }
  | .resume i choice =>
    match s.tasks[i]? with
    | some (n, .await call resume) =>
      (S.exec i n choice call s.shared).map fun (answer, shared) =>
        ⟨shared, s.tasks.set i (n, resume answer)⟩
    | _ => none
  | .env e => (S.env e s.shared).map fun shared => { s with shared := shared }

def System.machine (S : System σ ι κ η Call Answer ρ) :
    Machine (Pool σ ι Call Answer ρ) (Label ι κ η) where
  start := ⟨S.start, []⟩
  step := S.step

/-- What a step can do. -/
inductive Turn (S : System σ ι κ η Call Answer ρ) (s : Pool σ ι Call Answer ρ) :
    Label ι κ η → Pool σ ι Call Answer ρ → Prop
  | spawn (n : ι) : Turn S s (.spawn n) { s with tasks := s.tasks ++ [(n, S.spawn n)] }
  | resume {i : Nat} {choice : κ} {n : ι} {call : Call}
    {resume : Answer call → Coroutine Call Answer ρ} {answer : Answer call} {shared : σ}
    (htask : s.tasks[i]? = some (n, .await call resume))
    (hexec : S.exec i n choice call s.shared = some (answer, shared)) :
    Turn S s (.resume i choice) ⟨shared, s.tasks.set i (n, resume answer)⟩
  | env {e : η} {shared : σ} (henv : S.env e s.shared = some shared) :
    Turn S s (.env e) { s with shared := shared }

theorem turn_of_step {S : System σ ι κ η Call Answer ρ} {s s' : Pool σ ι Call Answer ρ}
    {a : Label ι κ η} (h : S.step s a = some s') : Turn S s a s' := by
  cases a with
  | spawn n =>
    obtain rfl := Option.some.inj h
    exact .spawn n
  | resume i choice =>
    unfold System.step at h
    dsimp only at h
    split at h
    · rename_i n call resume htask
      obtain ⟨⟨answer, shared⟩, hexec, rfl⟩ := Option.map_eq_some_iff.mp h
      exact .resume htask hexec
    · cases h
  | env e =>
    obtain ⟨shared, henv, rfl⟩ := Option.map_eq_some_iff.mp h
    exact .env henv

/-! ## What is known of the tasks -/

/-- `J` holds of the shared state, and `K` of every task where it stands. -/
structure Holds (J : σ → Prop) (K : σ → Nat → ι → Coroutine Call Answer ρ → Prop)
    (s : Pool σ ι Call Answer ρ) : Prop where
  shared : J s.shared
  task : ∀ i n x, s.tasks[i]? = some (n, x) → K s.shared i n x

section Holds

variable {J : σ → Prop} {K : σ → Nat → ι → Coroutine Call Answer ρ → Prop}
  {s : Pool σ ι Call Answer ρ}

theorem holds_start (S : System σ ι κ η Call Answer ρ) (h : J S.start) :
    Holds J K S.machine.start where
  shared := h
  task := by intro i n x hx; cases hx

theorem Holds.spawn (h : Holds J K s) {n : ι} {x : Coroutine Call Answer ρ}
    (hnew : K s.shared s.tasks.length n x) : Holds J K { s with tasks := s.tasks ++ [(n, x)] } where
  shared := h.shared
  task := by
    intro i m y hy
    dsimp only at hy
    rw [List.getElem?_append] at hy
    split at hy
    · exact h.task i m y hy
    · rename_i hle
      obtain ⟨hlt, heq⟩ := List.getElem?_eq_some_iff.mp hy
      have hi : i = s.tasks.length := by
        simp only [List.length_singleton] at hlt
        omega
      subst hi
      simp only [Nat.sub_self, List.getElem_cons_zero, Prod.mk.injEq] at heq
      obtain ⟨rfl, rfl⟩ := heq
      exact hnew

/-- A task goes on. What the others know stays true. -/
theorem Holds.resume (h : Holds J K s) {i : Nat} {n : ι} {x : Coroutine Call Answer ρ} {shared : σ}
    (hJ : J shared) (hself : K shared i n x)
    (hother : ∀ j m y, j ≠ i → s.tasks[j]? = some (m, y) → K s.shared j m y → K shared j m y) :
    Holds J K ⟨shared, s.tasks.set i (n, x)⟩ where
  shared := hJ
  task := by
    intro j m y hy
    dsimp only at hy
    rw [List.getElem?_set] at hy
    split at hy
    · rename_i hij
      subst hij
      split at hy
      · obtain ⟨rfl, rfl⟩ := Prod.mk.inj (Option.some.inj hy)
        exact hself
      · cases hy
    · rename_i hij
      exact hother j m y (Ne.symm hij) hy (h.task j m y hy)

theorem Holds.env (h : Holds J K s) {shared : σ} (hJ : J shared)
    (hall : ∀ j m y, s.tasks[j]? = some (m, y) → K s.shared j m y → K shared j m y) :
    Holds J K { s with shared := shared } where
  shared := hJ
  task := by
    intro j m y hy
    exact hall j m y hy (h.task j m y hy)

end Holds

end scheduling
