-- Watchdogs: a loop that waits for a timer and arms it again each time its wait
-- is cancelled. When the timer has expired no cancel can undo it, and the loop
-- ends as soon as it runs.
import Mathlib.Data.List.Basic

namespace watchdogs

/-! ## The loop and its timer -/

/-- Where the loop stands: it may not have begun, be due to arm the timer, wait for the expiry,
have been woken by the timer at a time, or have ended after that. -/
inductive Loop
  | idle
  | due
  | waiting (expiry : Nat)
  | expired (time : Nat)
  | ended (time : Nat)
  deriving DecidableEq

/-- `beats` is not part of it: the times at which the loop was started or its wait cancelled. -/
structure Watchdog where
  now : Nat := 0
  loop : Loop := .idle
  beats : List Nat := []
  deriving DecidableEq

variable (period : Nat) (w : Watchdog)

/-- The loop is handed to the scheduler, once. -/
def Watchdog.spawn : Watchdog :=
  if w.loop = .idle then { w with loop := .due, beats := w.now :: w.beats } else w

/-- A wait that is under way ends with an error. -/
def Watchdog.cancel : Watchdog :=
  match w.loop with
  | .waiting _ => { w with loop := .due, beats := w.now :: w.beats }
  | _ => { w with beats := w.now :: w.beats }

/-- Time passes, the timer expires, or the loop runs to its next wait. -/
inductive Act
  | tick (d : Nat)
  | expire
  | go
  deriving DecidableEq

def Watchdog.step : Act → Option Watchdog
  | .tick d => some { w with now := w.now + d }
  | .expire =>
    match w.loop with
    | .waiting expiry => if expiry ≤ w.now then some { w with loop := .expired w.now } else none
    | _ => none
  | .go =>
    match w.loop with
    | .due => some { w with loop := .waiting (w.now + period) }
    | .expired time => some { w with loop := .ended time }
    | _ => none

/-- Time does not pass the expiry of a timer, nor a loop that can run. -/
def Watchdog.Prompt : Act → Prop
  | .tick d =>
    match w.loop with
    | .idle | .ended _ => True
    | .waiting expiry => w.now + d ≤ expiry
    | .due | .expired _ => d = 0
  | _ => True

instance : DecidablePred w.Prompt
  | .tick d =>
    match w with
    | ⟨_, .idle, _⟩ | ⟨_, .ended _, _⟩ => isTrue trivial
    | ⟨now, .waiting expiry, _⟩ => inferInstanceAs (Decidable (now + d ≤ expiry))
    | ⟨_, .due, _⟩ | ⟨_, .expired _, _⟩ => inferInstanceAs (Decidable (d = 0))
  | .expire | .go => isTrue trivial

/-! ## Beats -/

@[simp] theorem spawn_now : w.spawn.now = w.now := by
  unfold Watchdog.spawn
  split <;> rfl

@[simp] theorem cancel_now : w.cancel.now = w.now := by
  unfold Watchdog.cancel
  split <;> rfl

theorem now_mem_cancel : w.now ∈ w.cancel.beats := by
  unfold Watchdog.cancel
  split <;> exact List.mem_cons_self

variable {w}

theorem mem_spawn {b : Nat} (h : b ∈ w.beats) : b ∈ w.spawn.beats := by
  unfold Watchdog.spawn
  split
  · exact List.mem_cons_of_mem _ h
  · exact h

theorem mem_cancel {b : Nat} (h : b ∈ w.beats) : b ∈ w.cancel.beats := by
  unfold Watchdog.cancel
  split <;> exact List.mem_cons_of_mem _ h

/-- No step takes a beat away. -/
theorem beats_step {period : Nat} {w' : Watchdog} {a : Act} (h : w.step period a = some w') :
    w'.beats = w.beats := by
  unfold Watchdog.step at h
  split at h
  · cases h
    rfl
  · split at h
    · obtain ⟨_, hw⟩ := Option.ite_none_right_eq_some.mp h
      cases hw
      rfl
    · cases h
  · split at h
    · cases h
      rfl
    · cases h
      rfl
    · cases h

/-! ## What holds of every run -/

/-- The timer is never armed for less than a period after a beat, so it expires in silence. -/
structure Sound (period : Nat) (w : Watchdog) : Prop where
  past : ∀ b ∈ w.beats, b ≤ w.now
  waiting : ∀ expiry, w.loop = .waiting expiry → ∀ b ∈ w.beats, b + period ≤ expiry
  expired : ∀ time, w.loop = .expired time ∨ w.loop = .ended time →
    time ≤ w.now ∧ ∀ b ∈ w.beats, b + period ≤ time ∨ time ≤ b

variable {period : Nat}

theorem sound_new : Sound period {} where
  past := by simp
  waiting := by simp
  expired := by simp

theorem past_cons (h : ∀ b ∈ w.beats, b ≤ w.now) : ∀ b ∈ w.now :: w.beats, b ≤ w.now := by
  intro b hb
  rcases List.mem_cons.mp hb with rfl | hb
  · exact Nat.le_refl _
  · exact h b hb

/-- A loop that is due has no timer that a beat could be too close to. -/
theorem Sound.made_due (h : Sound period w) :
    Sound period { w with loop := .due, beats := w.now :: w.beats } where
  past := past_cons h.past
  waiting := by simp
  expired := by simp

theorem Sound.spawn (h : Sound period w) : Sound period w.spawn := by
  unfold Watchdog.spawn
  split
  · exact h.made_due
  · exact h

theorem Sound.cancel (h : Sound period w) : Sound period w.cancel := by
  unfold Watchdog.cancel
  split
  · exact h.made_due
  · rename_i hloop
    refine ⟨past_cons h.past, fun expiry hw => absurd hw (hloop expiry), fun time ht => ?_⟩
    obtain ⟨hle, hbeats⟩ := h.expired time ht
    refine ⟨hle, fun b hb => ?_⟩
    rcases List.mem_cons.mp hb with rfl | hb
    · exact .inr hle
    · exact hbeats b hb

theorem Sound.step {w' : Watchdog} {a : Act} (h : Sound period w)
    (hs : w.step period a = some w') : Sound period w' := by
  cases a with
  | tick d =>
    cases hs
    refine ⟨fun b hb => Nat.le_trans (h.past b hb) (Nat.le_add_right _ _), h.waiting,
      fun time ht => ?_⟩
    obtain ⟨hle, hbeats⟩ := h.expired time ht
    exact ⟨Nat.le_trans hle (Nat.le_add_right _ _), hbeats⟩
  | expire =>
    unfold Watchdog.step at hs
    cases hloop : w.loop with
    | waiting expiry =>
      simp only [hloop, Option.ite_none_right_eq_some, Option.some.injEq] at hs
      obtain ⟨hle, rfl⟩ := hs
      refine ⟨h.past, fun _ hw => (by cases hw), fun time ht => ?_⟩
      obtain rfl : w.now = time := by simpa using ht
      exact ⟨Nat.le_refl _, fun b hb => .inl (Nat.le_trans (h.waiting expiry hloop b hb) hle)⟩
    | _ => simp [hloop] at hs
  | go =>
    unfold Watchdog.step at hs
    cases hloop : w.loop with
    | due =>
      simp only [hloop, Option.some.injEq] at hs
      subst hs
      refine ⟨h.past, fun expiry hw => ?_, fun _ ht => ?_⟩
      · obtain rfl : w.now + period = expiry := by simpa using hw
        exact fun b hb => Nat.add_le_add_right (h.past b hb) period
      · rcases ht with ht | ht <;> cases ht
    | expired time₀ =>
      simp only [hloop, Option.some.injEq] at hs
      subst hs
      refine ⟨h.past, fun _ hw => (by cases hw), fun time ht => ?_⟩
      obtain rfl : time₀ = time := by simpa using ht
      exact h.expired time₀ (.inl hloop)
    | _ => simp [hloop] at hs

/-! ## What holds of every prompt run -/

/-- The last beat is at most a period ago until the loop has ended. -/
structure Attended (period : Nat) (w : Watchdog) : Prop where
  due : w.loop = .due → w.now ∈ w.beats
  waiting : ∀ expiry, w.loop = .waiting expiry →
    w.now ≤ expiry ∧ ∃ b ∈ w.beats, expiry = b + period
  expired : ∀ time, w.loop = .expired time → ∃ b ∈ w.beats, w.now ≤ b + period

theorem attended_new : Attended period {} where
  due := by simp
  waiting := by simp
  expired := by simp

/-- A loop that is due since its last beat is attended to. -/
theorem attended_due : Attended period { w with loop := .due, beats := w.now :: w.beats } where
  due := by simp
  waiting := by simp
  expired := by simp

theorem Attended.spawn (h : Attended period w) : Attended period w.spawn := by
  unfold Watchdog.spawn
  split
  · exact attended_due
  · exact h

theorem Attended.cancel (h : Attended period w) : Attended period w.cancel := by
  unfold Watchdog.cancel
  split
  · exact attended_due
  · rename_i hloop
    refine ⟨fun _ => List.mem_cons_self, fun expiry hw => absurd hw (hloop expiry),
      fun time ht => ?_⟩
    obtain ⟨b, hb, hle⟩ := h.expired time ht
    exact ⟨b, List.mem_cons_of_mem _ hb, hle⟩

theorem Attended.step {w' : Watchdog} {a : Act} (h : Attended period w) (hp : w.Prompt a)
    (hs : w.step period a = some w') : Attended period w' := by
  cases a with
  | tick d =>
    cases hs
    refine ⟨fun hw => ?_, fun expiry hw => ?_, fun time ht => ?_⟩
    · dsimp only at hw
      obtain rfl : d = 0 := by simpa [Watchdog.Prompt, hw] using hp
      exact h.due hw
    · dsimp only at hw
      exact ⟨by simpa [Watchdog.Prompt, hw] using hp, (h.waiting expiry hw).2⟩
    · dsimp only at ht
      obtain rfl : d = 0 := by simpa [Watchdog.Prompt, ht] using hp
      exact h.expired time ht
  | expire =>
    unfold Watchdog.step at hs
    cases hloop : w.loop with
    | waiting expiry =>
      simp only [hloop, Option.ite_none_right_eq_some, Option.some.injEq] at hs
      obtain ⟨hle, rfl⟩ := hs
      obtain ⟨hnow, b, hb, heq⟩ := h.waiting expiry hloop
      exact ⟨fun hw => (by cases hw), fun _ hw => (by cases hw), fun _ _ => ⟨b, hb, heq ▸ hnow⟩⟩
    | _ => simp [hloop] at hs
  | go =>
    unfold Watchdog.step at hs
    cases hloop : w.loop with
    | due =>
      simp only [hloop, Option.some.injEq] at hs
      subst hs
      refine ⟨fun hw => (by cases hw), fun expiry hw => ?_, fun _ ht => (by cases ht)⟩
      obtain rfl : w.now + period = expiry := by simpa using hw
      exact ⟨Nat.le_add_right _ _, w.now, h.due hloop, rfl⟩
    | expired time =>
      simp only [hloop, Option.some.injEq] at hs
      subst hs
      exact ⟨fun hw => (by cases hw), fun _ hw => (by cases hw), fun _ ht => (by cases ht)⟩
    | _ => simp [hloop] at hs

/-- A loop that has begun ends once all beats are more than a period ago. -/
theorem Attended.ended (h : Attended period w) (hidle : w.loop ≠ .idle)
    (hsilent : ∀ b ∈ w.beats, b + period < w.now) : ∃ time, w.loop = .ended time := by
  cases hloop : w.loop with
  | idle => exact absurd hloop hidle
  | due =>
    have := hsilent _ (h.due hloop)
    omega
  | waiting expiry =>
    obtain ⟨hle, b, hb, rfl⟩ := h.waiting expiry hloop
    have := hsilent b hb
    omega
  | expired time =>
    obtain ⟨b, hb, hle⟩ := h.expired time hloop
    have := hsilent b hb
    omega
  | ended time => exact ⟨time, rfl⟩

end watchdogs
