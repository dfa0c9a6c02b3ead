-- The registry (SessionRegistry.cpp): for each user, a weak pointer to the
-- session that was inserted last.
import Loomic.Frame
import Mathlib.Logic.Function.Basic

open loomic.frame

namespace loomic.session_registry

/-- The map from users to weak pointers. A session is named by a `ρ`; `alive` says which
sessions have not been destroyed yet. -/
structure SessionRegistry (ρ : Type) where
  map : UserId → Option ρ

variable {ρ : Type}

def SessionRegistry.empty : SessionRegistry ρ := ⟨fun _ => none⟩

def SessionRegistry.insert (reg : SessionRegistry ρ) (user_id : UserId) (s : ρ) :
    SessionRegistry ρ := ⟨Function.update reg.map user_id (some s)⟩

/-- `weak_ptr::lock` gives no session once it has been destroyed. -/
def SessionRegistry.lookup (reg : SessionRegistry ρ) (alive : ρ → Bool) (user_id : UserId) :
    Option ρ := (reg.map user_id).filter alive

/-- An expected session is only taken out if it is alive and is the one in the map. -/
def SessionRegistry.remove [DecidableEq ρ] (reg : SessionRegistry ρ) (alive : ρ → Bool)
    (user_id : UserId) (expected : Option ρ) : SessionRegistry ρ :=
  match reg.map user_id, expected with
  | none, _ => reg
  | some _, none => ⟨Function.update reg.map user_id none⟩
  | some current, some s =>
    if alive current ∧ current = s then ⟨Function.update reg.map user_id none⟩ else reg

@[simp] theorem map_insert_self (reg : SessionRegistry ρ) (u : UserId) (s : ρ) :
    (reg.insert u s).map u = some s := by simp [SessionRegistry.insert]

theorem map_insert (reg : SessionRegistry ρ) (u v : UserId) (s : ρ) :
    (reg.insert u s).map v = if v = u then some s else reg.map v := by
  simp [SessionRegistry.insert, Function.update_apply]

theorem lookup_insert (reg : SessionRegistry ρ) {alive : ρ → Bool} (u : UserId)
    {s : ρ} (hs : alive s) :
    (reg.insert u s).lookup alive = Function.update (reg.lookup alive) u (some s) := by
  funext v
  unfold SessionRegistry.lookup
  rw [map_insert]
  by_cases hv : v = u <;> simp [hv, hs]

theorem lookup_eq_some {reg : SessionRegistry ρ} {alive : ρ → Bool} {u : UserId} {s : ρ} :
    reg.lookup alive u = some s ↔ reg.map u = some s ∧ alive s := by
  simp [SessionRegistry.lookup, Option.filter_eq_some_iff]

variable [DecidableEq ρ]

/-- A session that takes itself out leaves every other entry alone. -/
theorem map_remove (reg : SessionRegistry ρ) (alive : ρ → Bool) (u v : UserId) (s : ρ)
    (hs : alive s) : (reg.remove alive u (some s)).map v =
      if v = u ∧ reg.map u = some s then none else reg.map v := by
  unfold SessionRegistry.remove
  rcases hm : reg.map u with _ | c
  · simp
  · by_cases hc : c = s
    · subst hc
      by_cases hv : v = u <;> simp [hs, hv]
    · simp [hc]

/-- A session that takes itself out changes only the answer that was itself. -/
theorem lookup_remove (reg : SessionRegistry ρ) (alive : ρ → Bool) (u v : UserId) (s : ρ) :
    (reg.remove alive u (some s)).lookup alive v =
      if v = u ∧ reg.lookup alive u = some s then none else reg.lookup alive v := by
  unfold SessionRegistry.remove SessionRegistry.lookup
  rcases hm : reg.map u with _ | c
  · simp
  · by_cases hc : alive c ∧ c = s
    · obtain ⟨hc, rfl⟩ := hc
      by_cases hv : v = u <;> simp [hc, hv]
    · simp only [if_neg hc]
      rw [if_neg]
      rintro ⟨_, h⟩
      obtain ⟨h, hs⟩ := Option.filter_eq_some_iff.mp h
      obtain rfl : c = s := Option.some.inj h
      exact hc ⟨hs, rfl⟩

end loomic.session_registry
