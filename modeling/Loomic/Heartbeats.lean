-- The heartbeat of a session (heartbeat_loop and reset_heartbeat of Session.cpp
-- and WebSocketSession.cpp): a loop beside `run()` that closes the socket when no
-- ping has come for 30 seconds. It outlives `run()`, and holds the session.
import Loomic.Connections
import Loomic.Lib.Watchdogs

open loomic.frame loomic.json loomic.server loomic.session_run machines watchdogs

namespace loomic.heartbeats

/-! ## The two coroutines of a session -/

/-- `std::chrono::seconds(30)`, in milliseconds. -/
def heartbeat_timeout : Nat := 30000

/-- A session that waits for the next frame reads a ping. -/
def is_ping : AnyRun → AnyEvent → Bool
  | .tcp r, .tcp (.header hdr _) => r.await = .header ∧ hdr.type = .PING
  | .ws r, .ws (.text (some j)) => r.await = .text ∧ j.value_string "type" = some "ping"
  | _, _ => false

/-- `pings` is not in the code: the times at which `run()` has read a ping. -/
structure Supervised where
  run : AnyRun
  heartbeat : Watchdog
  pings : List Nat

/-- What an effect of `run()` does to the loop and its timer. -/
def beat : Effect Stored → Watchdog → Watchdog
  | .spawn_heartbeat_loop, w => w.spawn
  | .reset_heartbeat, w => w.cancel
  | .cancel_heartbeat, w => w.cancel
  | _, w => w

def beats (effects : List (Effect Stored)) (w : Watchdog) : Watchdog :=
  effects.foldl (fun w e => beat e w) w

/-- A segment of `run()`, or what happens to the loop. -/
inductive Label
  | resume (ev : AnyEvent)
  | heartbeat (act : Act)

def Supervised.step (verify : Bytes → Option UserId) (s : Supervised) :
    Label → Option Supervised
  | .resume ev => (s.run.resume verify ev).map fun (run, effects) =>
      { run := run
        heartbeat := beats effects s.heartbeat
        pings := if is_ping s.run ev then s.heartbeat.now :: s.pings else s.pings }
  | .heartbeat act => (s.heartbeat.step heartbeat_timeout act).map fun heartbeat =>
      { s with heartbeat := heartbeat }

def session (verify : Bytes → Option UserId) (k : Transport) : Machine Supervised Label where
  start := { run := .start k, heartbeat := {}, pings := [] }
  step := Supervised.step verify

namespace Supervised

variable (s : Supervised)

/-- The loop has closed the socket. -/
def CutOff : Prop := ∃ time, s.heartbeat.loop = .ended time

/-- One of the two coroutines holds the session by its `self`. -/
def Held : Prop := s.run.active = true ∨ ¬ (s.heartbeat.loop = .idle ∨ s.CutOff)

/-- Time does not pass the expiry of the timer, nor a loop that can run. -/
def Prompt : Label → Prop
  | .resume _ => True
  | .heartbeat act => s.heartbeat.Prompt act

instance : DecidablePred s.Prompt
  | .resume _ => isTrue trivial
  | .heartbeat act => inferInstanceAs (Decidable (s.heartbeat.Prompt act))

end Supervised

/-! ## What a segment does to the timer -/

section Beats

variable {P : Watchdog → Prop} {w : Watchdog} {effects : List (Effect Stored)}

theorem beats_keeps (hspawn : ∀ v, P v → P v.spawn) (hcancel : ∀ v, P v → P v.cancel)
    (h : P w) : P (beats effects w) := by
  unfold beats
  induction effects generalizing w with
  | nil => exact h
  | cons e effects ih =>
    refine ih ?_
    cases e with
    | spawn_heartbeat_loop => exact hspawn w h
    | reset_heartbeat => exact hcancel w h
    | cancel_heartbeat => exact hcancel w h
    | _ => exact h

/-- A segment takes no time and forgets no beat. -/
theorem beats_now : (beats effects w).now = w.now :=
  beats_keeps (P := fun v => v.now = w.now) (fun v hv => by rw [spawn_now, hv])
    (fun v hv => by rw [cancel_now, hv]) rfl

theorem mem_beats {b : Nat} (h : b ∈ w.beats) : b ∈ (beats effects w).beats :=
  beats_keeps (P := fun v => b ∈ v.beats) (fun _ => mem_spawn) (fun _ => mem_cancel) h

theorem beats_append (effects' : List (Effect Stored)) :
    beats (effects ++ effects') w = beats effects' (beats effects w) := List.foldl_append

/-- A reset is a beat. -/
theorem now_mem_beats (h : .reset_heartbeat ∈ effects) : w.now ∈ (beats effects w).beats := by
  obtain ⟨before, after, rfl⟩ := List.append_of_mem h
  have hnow : (beats before w).now = w.now := beats_now
  have hreset : w.now ∈ (beats before w).cancel.beats := hnow ▸ now_mem_cancel _
  have hkept : w.now ∈ (beats after (beats before w).cancel).beats := mem_beats hreset
  rwa [beats_append]

end Beats

/-- A ping resets the timer. -/
theorem reset_of_ping {verify : Bytes → Option UserId} {run run' : AnyRun} {ev : AnyEvent}
    {effects : List (Effect Stored)} (hping : is_ping run ev = true)
    (h : run.resume verify ev = some (run', effects)) : .reset_heartbeat ∈ effects := by
  unfold is_ping at hping
  split at hping
  · rename_i r hdr allowed
    obtain ⟨hawait, htype⟩ := of_decide_eq_true hping
    simp only [AnyRun.resume, Session.resume, hawait, Session.dispatch, htype, if_true,
      Option.map_some, Option.some.injEq, Prod.mk.injEq] at h
    rw [← h.2]
    exact List.mem_cons_self
  · rename_i r j
    obtain ⟨hawait, htype⟩ := of_decide_eq_true hping
    simp only [AnyRun.resume, WebSocketSession.resume, hawait, WebSocketSession.dispatch, htype,
      if_true, Option.map_some, Option.some.injEq, Prod.mk.injEq] at h
    rw [← h.2]
    exact List.mem_cons_self
  · cases hping

/-! ## The runs of a session -/

section Runs

variable {verify : Bytes → Option UserId} {k : Transport} {ls : List Label} {s s' : Supervised}

/-- What `run()` and the loop keep of the timer holds in every run. -/
theorem heartbeat_invariant {P : Watchdog → Prop} (hnew : P {})
    (hspawn : ∀ v, P v → P v.spawn) (hcancel : ∀ v, P v → P v.cancel)
    {ok : Supervised → Label → Prop}
    (hstep : ∀ s act v, P s.heartbeat → ok s (.heartbeat act) →
      s.heartbeat.step heartbeat_timeout act = some v → P v)
    (hm : (session verify k).Meets ok ls) (hr : (session verify k).run ls = some s) :
    P s.heartbeat := by
  refine Machine.invariant_of_meets (I := fun s => P s.heartbeat) hnew ?_ hm hr
  intro s l s' hP hok hs
  cases l with
  | resume ev =>
    obtain ⟨⟨run', effects⟩, _, rfl⟩ := Option.map_eq_some_iff.mp hs
    exact beats_keeps hspawn hcancel hP
  | heartbeat act =>
    obtain ⟨v, hv, rfl⟩ := Option.map_eq_some_iff.mp hs
    exact hstep s act v hP hok hv

theorem sound_run (hr : (session verify k).run ls = some s) :
    Sound heartbeat_timeout s.heartbeat := by
  have hm : (session verify k).Meets (fun _ _ => True) ls :=
    Machine.meetsFrom_of_forall (fun _ _ _ => trivial) _
  exact heartbeat_invariant sound_new (fun _ h => h.spawn) (fun _ h => h.cancel)
    (fun _ _ _ h _ hs => h.step hs) hm hr

theorem attended_run (hm : (session verify k).Meets Supervised.Prompt ls)
    (hr : (session verify k).run ls = some s) : Attended heartbeat_timeout s.heartbeat :=
  heartbeat_invariant attended_new (fun _ h => h.spawn) (fun _ h => h.cancel)
    (fun _ _ _ h hp hs => h.step hp hs) hm hr

theorem pings_are_beats (hr : (session verify k).run ls = some s) :
    ∀ p ∈ s.pings, p ∈ s.heartbeat.beats := by
  refine Machine.invariant (I := fun s => ∀ p ∈ s.pings, p ∈ s.heartbeat.beats) ?_ ?_ hr
  · intro p hp
    cases hp
  · intro s l s' hI hs p hp
    cases l with
    | resume ev =>
      obtain ⟨⟨run', effects⟩, hresume, rfl⟩ := Option.map_eq_some_iff.mp hs
      by_cases hping : is_ping s.run ev = true
      · rw [if_pos hping] at hp
        rcases List.mem_cons.mp hp with rfl | hp
        · exact now_mem_beats (reset_of_ping hping hresume)
        · exact mem_beats (hI p hp)
      · rw [if_neg hping] at hp
        exact mem_beats (hI p hp)
    | heartbeat act =>
      obtain ⟨v, hv, rfl⟩ := Option.map_eq_some_iff.mp hs
      rw [beats_step hv]
      exact hI p hp

/-- The loop closes the socket for 30 seconds of silence: no ping was read, the loop not started
and no cleanup begun in the 30 seconds before its timer expired. When time keeps to the loop, 30
seconds after the last of these the socket is closed, and a session whose `run()` has returned is
not held any more. -/
theorem the_heartbeat_closes_silent_sessions (hr : (session verify k).run ls = some s) :
    (∀ p ∈ s.pings, p ∈ s.heartbeat.beats) ∧
      (∀ time, s.heartbeat.loop = .ended time →
        ∀ b ∈ s.heartbeat.beats, b + heartbeat_timeout ≤ time ∨ time ≤ b) ∧
      ((session verify k).Meets Supervised.Prompt ls → s.heartbeat.loop ≠ .idle →
        (∀ b ∈ s.heartbeat.beats, b + heartbeat_timeout < s.heartbeat.now) →
        s.CutOff ∧ (s.run.active = false → ¬ s.Held)) := by
  have hsound := sound_run hr
  refine ⟨pings_are_beats hr, fun time htime => (hsound.expired time (.inr htime)).2, ?_⟩
  intro hm hidle hsilent
  have hcut : s.CutOff := (attended_run hm hr).ended hidle hsilent
  refine ⟨hcut, fun hreturned hheld => ?_⟩
  rcases hheld with hactive | hloop
  · rw [hreturned] at hactive
    cases hactive
  · exact hloop (.inr hcut)

end Runs

/-! ## A silent client -/

/-- A client of TCP logs in, and sends one ping after ten seconds. -/
def one_ping : List Label :=
  ([.header { payload_len := 1, msg_type := MsgType.AUTH.byte } true, .payload [7] true,
    .replied 0, .written, .frames []].map fun ev => .resume (.tcp ev)) ++
  [.heartbeat .go, .heartbeat (.tick 10000)] ++
  ([.header { msg_type := MsgType.PING.byte } true, .replied 0, .written].map fun ev =>
    .resume (.tcp ev)) ++
  [.heartbeat .go, .heartbeat (.tick 30000), .heartbeat .expire, .heartbeat .go]

/-- The read fails on the closed socket, and `run()` returns. -/
def returns : List Label :=
  ([.raised, .replied 0, .replied 0].map fun ev => .resume (.tcp ev)) ++
    [.heartbeat (.tick 30001)]

theorem a_silent_client_is_cut_off :
    ∃ s, (session (fun _ => some 7) .tcp).run (one_ping ++ returns) = some s ∧
      s.pings = [10000] ∧ s.heartbeat.loop = .ended 40000 ∧ s.CutOff ∧ ¬ s.Held := by
  have hr : (session (fun _ => some 7) .tcp).run (one_ping ++ returns) = some _ := rfl
  have hprompt : (session (fun _ => some 7) .tcp).Meets Supervised.Prompt
      (one_ping ++ returns) := by
    decide +kernel
  obtain ⟨hcut, hheld⟩ := (the_heartbeat_closes_silent_sessions hr).2.2 hprompt (by decide)
    (by decide)
  exact ⟨_, hr, rfl, rfl, hcut, hheld rfl⟩

end loomic.heartbeats
