-- The WebSocket of an open chat (ChatWorkspace.tsx): the effect that opens it,
-- its events and timers in any order. What the messages do to the lists of
-- the chat is left out.
import Loomic.Lib.Machine
import Mathlib.Algebra.Group.Nat.Defs

open machines

namespace loomic.browser_socket

/-! ## The state -/

inductive Ready
  | connecting
  | open_
  | closing
  | closed
  deriving DecidableEq, Repr

/-- The `type` of a JSON text that is sent. -/
inductive Frame
  | auth
  | ping
  | read
  | chat
  deriving DecidableEq, Repr

/-- A socket, with the run of the effect that opened it. -/
structure Socket where
  run : Nat
  ready : Ready := .connecting
  sent : List Frame := []

/-- `effect` is the run of the effect that is not cleaned up, and `runs` the number of runs.
Sockets and intervals are numbered in the order in which they are made. `reconnect` is the timer
with its run and its time in ms. -/
structure Page where
  signed_in : Bool := true
  effect : Option Nat := none
  runs : Nat := 0
  sockets : List Socket := []
  socket : Option Nat := none
  reconnect : Option (Nat × Nat) := none
  attempts : Nat := 0
  prevent : Bool := false
  /-- The calls of `refreshSession()` after an error that are awaited. -/
  refreshing : Nat := 0
  /-- The sockets whose `ensureFreshSession()` is awaited. -/
  awaiting : List Nat := []
  intervals : List (Nat × Nat) := []
  next_interval : Nat := 0
  heartbeat : Option Nat := none

/-! ## The functions -/

/-- `close()` of a socket that is closing or closed does nothing. -/
def Socket.close (socket : Socket) : Socket :=
  match socket.ready with
  | .connecting | .open_ => { socket with ready := .closing }
  | .closing | .closed => socket

/-- `send` of a socket that is not open is discarded. -/
def Socket.send (frame : Frame) (socket : Socket) : Socket :=
  match socket.ready with
  | .open_ => { socket with sent := socket.sent ++ [frame] }
  | .connecting | .closing | .closed => socket

namespace Page

def update (p : Page) (i : Nat) (f : Socket → Socket) : Page :=
  { p with sockets := p.sockets.modify i f }

def close_current (p : Page) : Page :=
  match p.socket with
  | none => p
  | some i => p.update i Socket.close

def clear_heartbeat (p : Page) : Page :=
  { p with
    intervals := p.intervals.filter fun interval => some interval.1 ≠ p.heartbeat
    heartbeat := none }

def open_socket (p : Page) (run : Nat) : Page :=
  { p with
    sockets := p.sockets ++ [{ run := run }]
    socket := some p.sockets.length }

/-- `Math.min(15_000, 1_000 * 2 ** (attempts - 1))`. -/
def wait_ms (attempts : Nat) : Nat := min 15000 (1000 * 2 ^ (attempts - 1))

def schedule_reconnect (p : Page) (run : Nat) : Page :=
  if p.effect ≠ some run ∨ p.prevent ∨ p.reconnect.isSome then p
  else { p with
    attempts := p.attempts + 1
    reconnect := some (run, wait_ms (p.attempts + 1)) }

/-- The function that the effect returns. -/
def cleanup (p : Page) : Page :=
  match p.effect with
  | none => p
  | some _ =>
    { ({ p with effect := none, prevent := true, reconnect := none }.clear_heartbeat).close_current
      with socket := none }

/-- A run of the effect with a session and a URL. -/
def run_effect (p : Page) : Page :=
  { p.cleanup with
    effect := some p.cleanup.runs
    runs := p.cleanup.runs + 1 }.open_socket p.cleanup.runs

/-- The head of `expireSession` and of `handleSignOut`. -/
def sign_out (p : Page) : Page :=
  { ({ p with
        signed_in := false, prevent := true, attempts := 0,
        reconnect := none }.clear_heartbeat).close_current
    with socket := none }

/-- The listener of `open`. -/
def opened (p : Page) (i : Nat) (socket : Socket) : Page :=
  let p := p.update i fun socket => { socket with ready := .open_ }
  if p.effect ≠ some socket.run ∨ p.socket ≠ some i then p.update i Socket.close
  else
    { ({ p with reconnect := none }.clear_heartbeat) with
      attempts := 0
      prevent := false
      awaiting := p.awaiting ++ [i] }

/-- After `ensureFreshSession()`. -/
def authed (p : Page) (i : Nat) : Page :=
  { p.update i (Socket.send .auth) with
    intervals := p.intervals ++ [(p.next_interval, i)]
    next_interval := p.next_interval + 1
    heartbeat := some p.next_interval }

/-- The listener of `close`. -/
def closed (p : Page) (i : Nat) (socket : Socket) : Page :=
  let p := p.update i fun socket => { socket with ready := .closed }
  let p := if p.socket = some i then { p with socket := none } else p
  p.clear_heartbeat.schedule_reconnect socket.run

end Page

/-! ## The runs -/

/-- `frame` is what the user sends, or the reading of a conversation. An error of the server can
speak of the token, and then the session is refreshed. A refresh that fails signs out first. -/
inductive Label
  | run_effect
  | cleanup
  | sign_out
  | opened (i : Nat)
  | authed (i : Nat) (ok : Bool)
  | beat (interval : Nat)
  | frame (chat : Bool)
  | error (i : Nat) (token : Bool)
  | refreshed (ok : Bool)
  | closed (i : Nat)
  | fire

/-- An event happens to a socket that is in a state for it. -/
def Page.step (p : Page) : Label → Option Page
  | .run_effect => some p.run_effect
  | .cleanup => some p.cleanup
  | .sign_out => some p.sign_out
  | .opened i =>
    match p.sockets[i]? with
    | none => none
    | some socket => if socket.ready = .connecting then some (p.opened i socket) else none
  | .authed i ok =>
    if i ∈ p.awaiting then
      let p := { p with awaiting := p.awaiting.erase i }
      some (if ok then p.authed i else p.update i Socket.close)
    else none
  | .beat interval =>
    (p.intervals.lookup interval).map fun i => p.update i (Socket.send .ping)
  | .frame chat => p.socket.map fun i => p.update i (Socket.send (if chat then .chat else .read))
  | .error i token =>
    match p.sockets[i]? with
    | none => none
    | some socket =>
      if socket.ready = .open_ then
        some ({ p with
          prevent := p.prevent || token
          refreshing := p.refreshing + token.toNat }.close_current)
      else none
  | .refreshed ok =>
    if p.refreshing = 0 then none
    else some { p with refreshing := p.refreshing - 1, prevent := p.prevent && !ok }
  | .closed i =>
    match p.sockets[i]? with
    | none => none
    | some socket => if socket.ready = .closed then none else some (p.closed i socket)
  | .fire =>
    p.reconnect.map fun (run, _) =>
      let p := { p with reconnect := none }
      if p.effect = some run then p.open_socket run else p

def page : Machine Page Label where
  start := {}
  step := Page.step

/-! ## One socket at a time -/

def Socket.live (socket : Socket) : Bool :=
  socket.ready = .connecting || socket.ready = .open_

/-- A socket that is connecting or open is the one of the reference, and its effect is not cleaned
up. While a socket of this effect is not closed, there is no other, and no timer runs. -/
structure Sound (p : Page) : Prop where
  runs : ∀ (i : Nat) (socket : Socket), p.sockets[i]? = some socket → socket.run < p.runs
  mounted : ∀ run, p.effect = some run → run < p.runs
  live : ∀ (i : Nat) (socket : Socket), p.sockets[i]? = some socket → socket.live = true →
    p.socket = some i ∧ p.effect = some socket.run
  alone : ∀ (i : Nat) (socket : Socket), p.sockets[i]? = some socket → socket.ready ≠ .closed →
    p.effect = some socket.run → p.reconnect = none ∧
      ∀ (j : Nat) (other : Socket), p.sockets[j]? = some other → other.ready ≠ .closed →
        other.run = socket.run → j = i
  timer : ∀ run wait, p.reconnect = some (run, wait) →
    p.effect = some run ∧ 1 ≤ p.attempts ∧ wait = Page.wait_ms p.attempts

section Sockets

variable {p p' : Page} {i j : Nat} {socket : Socket}

/-- What stands in the list after an update. -/
theorem sockets_update {f : Socket → Socket} (h : (p.update i f).sockets[j]? = some socket) :
    ∃ old, p.sockets[j]? = some old ∧ socket = if i = j then f old else old := by
  unfold Page.update at h
  dsimp only at h
  rw [List.getElem?_modify] at h
  obtain ⟨old, hold, rfl⟩ := Option.map_eq_some_iff.mp h
  exact ⟨old, hold, rfl⟩

/-- A change of one socket that does not revive it. -/
structure Tame (f : Socket → Socket) (socket : Socket) : Prop where
  run : (f socket).run = socket.run
  live : (f socket).live = true → socket.live = true
  closed : (f socket).ready ≠ .closed → socket.ready ≠ .closed

theorem tame_close : Tame Socket.close socket := by
  obtain ⟨run, ready, sent⟩ := socket
  constructor <;> cases ready <;> simp [Socket.close, Socket.live]

theorem tame_send {frame : Frame} : Tame (Socket.send frame) socket := by
  obtain ⟨run, ready, sent⟩ := socket
  constructor <;> cases ready <;> simp [Socket.send, Socket.live]

theorem Sound.update (h : Sound p) {f : Socket → Socket}
    (hf : ∀ socket, p.sockets[i]? = some socket → Tame f socket) : Sound (p.update i f) := by
  -- What was there before stands at the same place.
  have hold : ∀ (j : Nat) (socket : Socket), (p.update i f).sockets[j]? = some socket → ∃ old,
      p.sockets[j]? = some old ∧ socket.run = old.run ∧
      (socket.live = true → old.live = true) ∧ (socket.ready ≠ .closed → old.ready ≠ .closed) := by
    intro j socket hj
    obtain ⟨old, hget, rfl⟩ := sockets_update hj
    refine ⟨old, hget, ?_⟩
    split_ifs with hij
    · subst hij
      exact ⟨(hf old hget).run, (hf old hget).live, (hf old hget).closed⟩
    · exact ⟨rfl, id, id⟩
  refine ⟨?_, h.mounted, ?_, ?_, h.timer⟩
  · intro j socket hj
    obtain ⟨old, hget, hrun, -, -⟩ := hold j socket hj
    rw [hrun]
    exact h.runs j old hget
  · intro j socket hj hlive
    obtain ⟨old, hget, hrun, hl, -⟩ := hold j socket hj
    rw [hrun]
    exact h.live j old hget (hl hlive)
  · intro j socket hj hclosed heffect
    obtain ⟨old, hget, hrun, -, hc⟩ := hold j socket hj
    rw [hrun] at heffect
    obtain ⟨htimer, halone⟩ := h.alone j old hget (hc hclosed) heffect
    refine ⟨htimer, fun k other hk hother hsame => ?_⟩
    obtain ⟨old', hget', hrun', -, hc'⟩ := hold k other hk
    exact halone k old' hget' (hc' hother) (by rw [← hrun', hsame, hrun])

theorem Sound.close_current (h : Sound p) : Sound p.close_current := by
  unfold Page.close_current
  split
  · exact h
  · exact h.update fun _ _ => tame_close

/-- No socket is live when the one of the reference has been closed. -/
theorem Sound.not_live (h : Sound p) (hi : p.close_current.sockets[i]? = some socket) :
    socket.live = false := by
  by_contra hlive
  rw [Bool.not_eq_false] at hlive
  obtain ⟨hcurrent, _⟩ := h.close_current.live i socket hi hlive
  have hsame : p.close_current.socket = p.socket := by
    unfold Page.close_current
    split <;> rfl
  rw [hsame] at hcurrent
  unfold Page.close_current at hi
  rw [hcurrent] at hi
  obtain ⟨old, _, rfl⟩ := sockets_update hi
  rw [if_pos rfl] at hlive
  obtain ⟨run, ready, sent⟩ := old
  cases ready <;> simp [Socket.close, Socket.live] at hlive

/-- The timers of the heartbeat do not matter. -/
@[simp] theorem clear_heartbeat_sockets (p : Page) : p.clear_heartbeat.sockets = p.sockets := rfl

@[simp] theorem clear_heartbeat_socket (p : Page) : p.clear_heartbeat.socket = p.socket := rfl

/-- Closing looks at the reference only. -/
theorem close_current_sockets (hsockets : p'.sockets = p.sockets) (hsocket : p'.socket = p.socket) :
    p'.close_current.sockets = p.close_current.sockets := by
  unfold Page.close_current Page.update
  rw [hsocket]
  split
  · exact hsockets
  · dsimp only
    rw [hsockets]

@[simp] theorem close_current_runs (p : Page) : p.close_current.runs = p.runs := by
  unfold Page.close_current
  split <;> rfl

@[simp] theorem close_current_effect (p : Page) : p.close_current.effect = p.effect := by
  unfold Page.close_current
  split <;> rfl

@[simp] theorem close_current_reconnect (p : Page) :
    p.close_current.reconnect = p.reconnect := by
  unfold Page.close_current
  split <;> rfl

/-- The state after the reference has been closed and given up, with no timer. -/
theorem Sound.given_up (h : Sound p) (hsockets : p'.sockets = p.close_current.sockets)
    (hruns : p'.runs = p.runs) (heffect : p'.effect = none ∨ p'.effect = p.effect)
    (htimer : p'.reconnect = none) : Sound p' := by
  have hclose := h.close_current
  refine ⟨?_, ?_, ?_, ?_, ?_⟩
  · intro i socket hi
    rw [hsockets] at hi
    rw [hruns]
    simpa using hclose.runs i socket hi
  · intro run hrun
    rw [hruns]
    rcases heffect with hnone | hsame
    · rw [hnone] at hrun
      cases hrun
    · exact h.mounted run (hsame ▸ hrun)
  · intro i socket hi hlive
    rw [hsockets] at hi
    rw [h.not_live hi] at hlive
    cases hlive
  · intro i socket hi hclosed hrun
    refine ⟨htimer, ?_⟩
    rcases heffect with hnone | hsame
    · rw [hnone] at hrun
      cases hrun
    · rw [hsockets] at hi ⊢
      exact (hclose.alone i socket hi hclosed (by simpa [← hsame] using hrun)).2
  · intro run wait hsome
    rw [htimer] at hsome
    cases hsome

theorem Sound.cleanup (h : Sound p) : Sound p.cleanup := by
  unfold Page.cleanup
  split
  · exact h
  · refine h.given_up (close_current_sockets rfl rfl) ?_ (.inl ?_) ?_
    · exact close_current_runs _
    · exact close_current_effect _
    · exact close_current_reconnect _

theorem Sound.sign_out (h : Sound p) : Sound p.sign_out := by
  refine h.given_up (close_current_sockets rfl rfl) ?_ (.inr ?_) ?_
  · exact close_current_runs _
  · exact close_current_effect _
  · exact close_current_reconnect _

theorem cleanup_effect (p : Page) : p.cleanup.effect = none := by
  unfold Page.cleanup
  split
  · assumption
  · exact close_current_effect _

/-- Without an effect there is no timer. -/
theorem Sound.no_timer (h : Sound p) (heffect : p.effect = none) : p.reconnect = none := by
  cases htimer : p.reconnect with
  | none => rfl
  | some timer =>
    obtain ⟨hrun, _⟩ := h.timer timer.1 timer.2 htimer
    rw [heffect] at hrun
    cases hrun

/-- A new socket, where none of this run is left. -/
theorem Sound.open_socket (h : Sound p) {run : Nat} (heffect : p.effect = some run)
    (htimer : p.reconnect = none)
    (hold : ∀ (i : Nat) (socket : Socket), p.sockets[i]? = some socket → socket.run = run →
      socket.ready = .closed) : Sound (p.open_socket run) := by
  have hcases : ∀ (i : Nat) (socket : Socket), (p.open_socket run).sockets[i]? = some socket →
      p.sockets[i]? = some socket ∨ i = p.sockets.length ∧ socket = { run := run } := by
    intro i socket hi
    unfold Page.open_socket at hi
    dsimp only at hi
    rw [List.getElem?_append] at hi
    split_ifs at hi with hlt
    · exact .inl hi
    · rw [List.getElem?_singleton] at hi
      split_ifs at hi with hzero
      exact .inr ⟨by omega, (Option.some.inj hi).symm⟩
  have hnone : ∀ (i : Nat) (socket : Socket), p.sockets[i]? = some socket →
      socket.live = false := by
    intro i socket hi
    by_contra hlive
    rw [Bool.not_eq_false] at hlive
    obtain ⟨_, hrun⟩ := h.live i socket hi hlive
    rw [heffect, Option.some.injEq] at hrun
    have hclosed := hold i socket hi hrun.symm
    simp [Socket.live, hclosed] at hlive
  refine ⟨?_, h.mounted, ?_, ?_, ?_⟩
  · intro i socket hi
    rcases hcases i socket hi with hi | ⟨_, rfl⟩
    · exact h.runs i socket hi
    · exact h.mounted run heffect
  · intro i socket hi hlive
    rcases hcases i socket hi with hi | ⟨rfl, rfl⟩
    · rw [hnone i socket hi] at hlive
      cases hlive
    · exact ⟨rfl, heffect⟩
  · intro i socket hi hclosed hrun
    refine ⟨htimer, fun j other hj hother hsame => ?_⟩
    have hthis : ∀ (k : Nat) (s : Socket), (p.open_socket run).sockets[k]? = some s →
        s.ready ≠ .closed → s.run = run → k = p.sockets.length := by
      intro k s hk hs hr
      rcases hcases k s hk with hk | ⟨rfl, _⟩
      · exact absurd (hold k s hk hr) hs
      · rfl
    have hrun' : socket.run = run := Option.some.inj (hrun.symm.trans heffect)
    rw [hthis i socket hi hclosed hrun', hthis j other hj hother (hsame.trans hrun')]
  · intro run' wait hsome
    exact absurd (htimer.symm.trans hsome) (by simp)

theorem Sound.run_effect (h : Sound p) : Sound p.run_effect := by
  have hclean := h.cleanup
  have heffect := cleanup_effect p
  have htimer := hclean.no_timer heffect
  have hnew : Sound { p.cleanup with
      effect := some p.cleanup.runs
      runs := p.cleanup.runs + 1 } := by
    refine ⟨?_, ?_, ?_, ?_, ?_⟩
    · exact fun i socket hi => Nat.lt_succ_of_lt (hclean.runs i socket hi)
    · intro run hrun
      obtain rfl := Option.some.inj hrun
      exact Nat.lt_succ_self _
    · intro i socket hi hlive
      obtain ⟨_, hrun⟩ := hclean.live i socket hi hlive
      rw [heffect] at hrun
      cases hrun
    · intro i socket hi _ hrun
      exact absurd (Option.some.inj hrun) (Nat.ne_of_gt (hclean.runs i socket hi))
    · intro run wait hsome
      exact absurd (htimer.symm.trans hsome) (by simp)
  refine hnew.open_socket rfl htimer fun i socket hi hrun => ?_
  exact absurd hrun (Nat.ne_of_lt (hclean.runs i socket hi))

/-- The listener of `open`: the socket is the one of the reference. -/
theorem Sound.opened (h : Sound p) (hi : p.sockets[i]? = some socket)
    (hready : socket.ready = .connecting) : Sound (p.opened i socket) := by
  have hopen : Sound (p.update i fun socket => { socket with ready := .open_ }) := by
    refine h.update fun socket' hi' => ?_
    obtain rfl : socket = socket' := Option.some.inj (hi.symm.trans hi')
    exact ⟨rfl, fun _ => by simp [Socket.live, hready], fun _ => by simp [hready]⟩
  unfold Page.opened
  dsimp only
  split_ifs
  · exact hopen.update fun _ _ => tame_close
  · refine ⟨hopen.runs, hopen.mounted, hopen.live, ?_, fun _ _ hsome => nomatch hsome⟩
    exact fun j other hj hother hrun => ⟨rfl, (hopen.alone j other hj hother hrun).2⟩

/-- The listener of `close`. No other socket of the effect is left. -/
theorem Sound.closed (h : Sound p) (hi : p.sockets[i]? = some socket)
    (hready : socket.ready ≠ .closed) : Sound (p.closed i socket) := by
  have hclose : Sound (p.update i fun socket => { socket with ready := .closed }) := by
    refine h.update fun _ _ => ⟨rfl, ?_, ?_⟩ <;> simp [Socket.live]
  have hgone : ∀ (j : Nat) (other : Socket),
      (p.update i fun socket => { socket with ready := .closed }).sockets[j]? = some other →
      p.effect = some socket.run → other.run = socket.run → other.ready = .closed := by
    intro j other hj heffect hrun
    obtain ⟨old, hold, rfl⟩ := sockets_update hj
    split_ifs at hrun ⊢ with hij
    · rfl
    · by_contra hother
      exact hij ((h.alone i socket hi hready heffect).2 j old hold hother hrun).symm
  have hlost : Sound (if (p.update i fun socket => { socket with ready := .closed }).socket = some i
      then { p.update i fun socket => { socket with ready := .closed } with socket := none }
      else p.update i fun socket => { socket with ready := .closed }) := by
    split_ifs with hcurrent
    · refine ⟨hclose.runs, hclose.mounted, ?_, hclose.alone, hclose.timer⟩
      intro j other hj hlive
      obtain ⟨hj', _⟩ := hclose.live j other hj hlive
      obtain rfl : i = j := Option.some.inj (hcurrent.symm.trans hj')
      obtain ⟨old, _, rfl⟩ := sockets_update hj
      simp [Socket.live] at hlive
    · exact hclose
  unfold Page.closed Page.schedule_reconnect
  dsimp only
  generalize hq : (if (p.update i fun socket => { socket with ready := .closed }).socket = some i
      then { p.update i fun socket => { socket with ready := .closed } with socket := none }
      else p.update i fun socket => { socket with ready := .closed }) = q at hlost
  have hsockets : q.sockets =
      (p.update i fun socket => { socket with ready := .closed }).sockets := by
    rw [← hq]
    split <;> rfl
  have heffect : q.effect = p.effect := by
    rw [← hq]
    split <;> rfl
  split_ifs with hskip
  · exact ⟨hlost.runs, hlost.mounted, hlost.live, hlost.alone, hlost.timer⟩
  · obtain ⟨hrun, _, _⟩ : q.effect = some socket.run ∧ q.prevent = false ∧
        q.reconnect.isSome = false := by simpa [Page.clear_heartbeat] using hskip
    refine ⟨hlost.runs, hlost.mounted, hlost.live, ?_, ?_⟩
    · intro j other hj hother hsame
      dsimp only [clear_heartbeat_sockets] at hj
      rw [hsockets] at hj
      have hsame' : some socket.run = some other.run := hrun.symm.trans hsame
      exact absurd (hgone j other hj (heffect.symm.trans hrun) (Option.some.inj hsame').symm)
        hother
    · intro run wait hsome
      obtain ⟨rfl, rfl⟩ := Prod.mk.inj (Option.some.inj hsome)
      exact ⟨hrun, Nat.le_add_left 1 _, rfl⟩

theorem Sound.fire (h : Sound p) {run wait : Nat} (htimer : p.reconnect = some (run, wait)) :
    Sound (({ p with reconnect := none } : Page).open_socket run) := by
  obtain ⟨heffect, _, _⟩ := h.timer run wait htimer
  have hnone : Sound { p with reconnect := none } :=
    ⟨h.runs, h.mounted, h.live, fun j other hj hother hrun =>
      ⟨rfl, (h.alone j other hj hother hrun).2⟩, fun _ _ hsome => nomatch hsome⟩
  refine hnone.open_socket heffect rfl fun i socket hi hrun => ?_
  by_contra hclosed
  have hnotimer := (h.alone i socket hi hclosed (by rw [heffect, hrun])).1
  rw [htimer] at hnotimer
  cases hnotimer

theorem sound_step {a : Label} (h : Sound p) (hstep : p.step a = some p') : Sound p' := by
  cases a with
  | run_effect =>
    obtain rfl := Option.some.inj hstep
    exact h.run_effect
  | cleanup =>
    obtain rfl := Option.some.inj hstep
    exact h.cleanup
  | sign_out =>
    obtain rfl := Option.some.inj hstep
    exact h.sign_out
  | opened i =>
    unfold Page.step at hstep
    dsimp only at hstep
    split at hstep
    · cases hstep
    · rename_i socket hi
      split_ifs at hstep with hready
      obtain rfl := Option.some.inj hstep
      exact h.opened hi hready
  | authed i ok =>
    unfold Page.step at hstep
    dsimp only at hstep
    split_ifs at hstep with hmem hok
    · obtain rfl := Option.some.inj hstep
      have hsent := h.update (i := i) (f := Socket.send .auth) fun _ _ => tame_send
      exact ⟨hsent.runs, hsent.mounted, hsent.live, hsent.alone, hsent.timer⟩
    · obtain rfl := Option.some.inj hstep
      have hclose := h.update (i := i) (f := Socket.close) fun _ _ => tame_close
      exact ⟨hclose.runs, hclose.mounted, hclose.live, hclose.alone, hclose.timer⟩
  | beat interval =>
    obtain ⟨i, _, rfl⟩ := Option.map_eq_some_iff.mp hstep
    exact h.update fun _ _ => tame_send
  | frame chat =>
    obtain ⟨i, _, rfl⟩ := Option.map_eq_some_iff.mp hstep
    exact h.update fun _ _ => tame_send
  | error i token =>
    unfold Page.step at hstep
    dsimp only at hstep
    split at hstep
    · cases hstep
    · split_ifs at hstep
      obtain rfl := Option.some.inj hstep
      have hsame : Sound { p with
          prevent := p.prevent || token
          refreshing := p.refreshing + token.toNat } :=
        ⟨h.runs, h.mounted, h.live, h.alone, h.timer⟩
      exact hsame.close_current
  | refreshed ok =>
    unfold Page.step at hstep
    dsimp only at hstep
    split_ifs at hstep
    obtain rfl := Option.some.inj hstep
    exact ⟨h.runs, h.mounted, h.live, h.alone, h.timer⟩
  | closed i =>
    unfold Page.step at hstep
    dsimp only at hstep
    split at hstep
    · cases hstep
    · rename_i socket hi
      split_ifs at hstep with hready
      obtain rfl := Option.some.inj hstep
      exact h.closed hi hready
  | fire =>
    obtain ⟨⟨run, wait⟩, htimer, rfl⟩ := Option.map_eq_some_iff.mp hstep
    dsimp only
    rw [if_pos (h.timer run wait htimer).1]
    exact h.fire htimer

end Sockets

theorem sound_start : Sound page.start := by
  constructor <;> simp [page]

/-- A socket that is connecting or open is the one of the reference. While the page waits to
connect again, there is none, and it waits between one second and fifteen. -/
structure InOrder (p : Page) : Prop where
  current : ∀ (i : Nat) (socket : Socket), p.sockets[i]? = some socket → socket.live = true →
    p.socket = some i
  waiting : ∀ run wait, p.reconnect = some (run, wait) →
    p.effect = some run ∧ 1000 ≤ wait ∧ wait ≤ 15000 ∧
      ∀ (i : Nat) (socket : Socket), p.sockets[i]? = some socket → socket.live = false

theorem wait_ms_bounds (attempts : Nat) :
    1000 ≤ Page.wait_ms attempts ∧ Page.wait_ms attempts ≤ 15000 := by
  have hpow : 0 < 2 ^ (attempts - 1) := Nat.two_pow_pos _
  unfold Page.wait_ms
  omega

theorem Sound.in_order {p : Page} (h : Sound p) : InOrder p where
  current := fun i socket hi hlive => (h.live i socket hi hlive).1
  waiting := by
    intro run wait htimer
    obtain ⟨heffect, _, rfl⟩ := h.timer run wait htimer
    obtain ⟨hlow, hhigh⟩ := wait_ms_bounds p.attempts
    refine ⟨heffect, hlow, hhigh, fun i socket hi => ?_⟩
    by_contra hlive
    rw [Bool.not_eq_false] at hlive
    have hclosed : socket.ready ≠ .closed := by
      intro hclosed
      simp [Socket.live, hclosed] at hlive
    have hnone := (h.alone i socket hi hclosed (h.live i socket hi hlive).2).1
    rw [htimer] at hnone
    cases hnone

/-- In every run there is at most one socket that is connecting or open, and none while the page
waits to connect again. -/
theorem there_is_one_socket_at_a_time {as : List Label} {p : Page} (hr : page.run as = some p) :
    InOrder p :=
  (Machine.invariant sound_start (fun _ _ _ h hstep => sound_step h hstep) hr : Sound p).in_order

/-- A socket drops, and the page waits for a second. -/
theorem a_page_waits_without_a_socket :
    ∃ p, page.run [.run_effect, .opened 0, .closed 0] = some p ∧
      p.reconnect = some (0, 1000) ∧ InOrder p :=
  ⟨_, rfl, rfl, @there_is_one_socket_at_a_time [.run_effect, .opened 0, .closed 0] _ rfl⟩

/-! ## The next attempt -/

/-- The user is signed in and the effect is not cleaned up, but all sockets of it are closed, and no
timer runs: nothing will happen of itself. -/
structure Stranded (p : Page) : Prop where
  signed_in : p.signed_in = true
  closed : ∃ run, p.effect = some run ∧ ∀ (i : Nat) (socket : Socket),
    p.sockets[i]? = some socket → socket.run = run → socket.ready = .closed
  no_timer : p.reconnect = none

/-- No socket of the effect is closed while another attempt is prevented. -/
def Retries (p : Page) : Label → Prop
  | .closed i => ∀ socket ∈ p.sockets[i]?, p.signed_in = true → p.effect = some socket.run →
      p.prevent = false
  | _ => True

instance decidable_retries (p : Page) : ∀ a, Decidable (Retries p a)
  | .closed i => inferInstanceAs (Decidable (∀ socket ∈ p.sockets[i]?, p.signed_in = true →
      p.effect = some socket.run → p.prevent = false))
  | .run_effect | .cleanup | .sign_out | .opened _ | .authed _ _ | .beat _ | .frame _
  | .error _ _ | .refreshed _ | .fire => .isTrue trivial

section Stranded

variable {p p' : Page} {i : Nat} {socket : Socket}

/-- A page with a socket of its effect that is not closed is not stranded. -/
theorem not_stranded {run : Nat} (heffect : p.effect = some run)
    (hi : p.sockets[i]? = some socket) (hrun : socket.run = run)
    (hready : socket.ready ≠ .closed) : ¬ Stranded p := by
  intro h
  obtain ⟨run', hrun', hclosed⟩ := h.closed
  obtain rfl : run = run' := Option.some.inj (heffect.symm.trans hrun')
  exact hready (hclosed i socket hi hrun)

theorem open_socket_not_stranded {run : Nat} (heffect : p.effect = some run) :
    ¬ Stranded (p.open_socket run) := by
  have hi : (p.open_socket run).sockets[p.sockets.length]? = some { run := run } := by
    unfold Page.open_socket
    simp
  exact not_stranded heffect hi rfl (by simp)

/-- A change that closes no socket for good strands nobody. -/
theorem Stranded.of_update {f : Socket → Socket}
    (hf : ∀ s, (f s).run = s.run ∧ ((f s).ready = .closed → s.ready = .closed))
    (h : Stranded (p.update i f)) : Stranded p := by
  obtain ⟨run, heffect, hclosed⟩ := h.closed
  refine ⟨h.signed_in, ⟨run, heffect, fun j socket hj hrun => ?_⟩, h.no_timer⟩
  have hget : (p.update i f).sockets[j]? = some (if i = j then f socket else socket) := by
    unfold Page.update
    dsimp only
    rw [List.getElem?_modify, hj]
    rfl
  by_cases hij : i = j
  · rw [if_pos hij] at hget
    exact (hf socket).2 (hclosed j _ hget ((hf socket).1.trans hrun))
  · rw [if_neg hij] at hget
    exact hclosed j _ hget hrun

theorem close_keeps (s : Socket) :
    s.close.run = s.run ∧ (s.close.ready = .closed → s.ready = .closed) := by
  obtain ⟨run, ready, sent⟩ := s
  cases ready <;> simp [Socket.close]

theorem send_keeps (frame : Frame) (s : Socket) :
    (s.send frame).run = s.run ∧ ((s.send frame).ready = .closed → s.ready = .closed) := by
  obtain ⟨run, ready, sent⟩ := s
  cases ready <;> simp [Socket.send]

theorem Stranded.of_close_current (h : Stranded p.close_current) : Stranded p := by
  unfold Page.close_current at h
  split at h
  · exact h
  · exact h.of_update close_keeps

/-- The sockets after one was closed. -/
theorem closed_sockets (p : Page) (i : Nat) (socket : Socket) : (p.closed i socket).sockets =
    (p.update i fun socket => { socket with ready := .closed }).sockets := by
  unfold Page.closed Page.schedule_reconnect
  dsimp only
  split_ifs <;> rfl

theorem closed_effect (p : Page) (i : Nat) (socket : Socket) :
    (p.closed i socket).effect = p.effect ∧ (p.closed i socket).signed_in = p.signed_in := by
  unfold Page.closed Page.schedule_reconnect
  dsimp only
  split_ifs <;> exact ⟨rfl, rfl⟩

/-- When a socket of the effect closes, the page waits, or is prevented from it. -/
theorem closed_reconnect (heffect : p.effect = some socket.run) (htimer : p.reconnect = none) :
    (p.closed i socket).reconnect =
      if p.prevent then none else some (socket.run, Page.wait_ms (p.attempts + 1)) := by
  unfold Page.closed Page.schedule_reconnect Page.clear_heartbeat Page.update
  dsimp only
  split_ifs <;> simp_all

theorem closed_reconnect_other (heffect : p.effect ≠ some socket.run) :
    (p.closed i socket).reconnect = p.reconnect := by
  unfold Page.closed Page.schedule_reconnect Page.clear_heartbeat Page.update
  dsimp only
  split_ifs <;> simp_all

/-- The close of a socket strands the page just if it was prevented. -/
theorem stranded_closed (h : Sound p) (hn : ¬ Stranded p) (hi : p.sockets[i]? = some socket)
    (hready : socket.ready ≠ .closed) :
    Stranded (p.closed i socket) ↔
      p.signed_in = true ∧ p.effect = some socket.run ∧ p.prevent = true := by
  obtain ⟨hsame, hsigned⟩ := closed_effect p i socket
  constructor
  · intro hs
    obtain ⟨run, hrun, hclosed⟩ := hs.closed
    rw [hsame] at hrun
    by_cases heffect : p.effect = some socket.run
    · refine ⟨hsigned.symm.trans hs.signed_in, heffect, ?_⟩
      have hnone := hs.no_timer
      rw [closed_reconnect heffect (h.alone i socket hi hready heffect).1] at hnone
      split_ifs at hnone with hprevent
      exact hprevent
    · refine absurd ⟨hsigned.symm.trans hs.signed_in, ⟨run, hrun, fun j other hj hother => ?_⟩,
        (closed_reconnect_other heffect).symm.trans hs.no_timer⟩ hn
      have hij : i ≠ j := by
        rintro rfl
        obtain rfl : socket = other := Option.some.inj (hi.symm.trans hj)
        exact heffect (hrun.trans (congrArg some hother.symm))
      refine hclosed j other ?_ hother
      rw [closed_sockets]
      unfold Page.update
      dsimp only
      rw [List.getElem?_modify, hj]
      exact congrArg some (if_neg hij)
  · rintro ⟨hin, heffect, hprevent⟩
    obtain ⟨htimer, halone⟩ := h.alone i socket hi hready heffect
    refine ⟨hsigned.trans hin, ⟨socket.run, hsame.trans heffect, fun j other hj hother => ?_⟩, ?_⟩
    · rw [closed_sockets] at hj
      obtain ⟨old, hold, rfl⟩ := sockets_update hj
      split_ifs at hother ⊢ with hij
      · rfl
      · by_contra hopen
        exact hij (halone j old hold hopen hother).symm
    · rw [closed_reconnect heffect htimer, hprevent]
      rfl

/-- Any step strands the page just if it is the close of a socket while another attempt is
prevented. -/
theorem stranded_step {a : Label} (h : Sound p) (hn : ¬ Stranded p) (hstep : p.step a = some p') :
    ¬ Stranded p' ↔ Retries p a := by
  cases a with
  | closed i =>
    unfold Page.step at hstep
    dsimp only at hstep
    split at hstep
    · cases hstep
    · rename_i socket hi
      split_ifs at hstep with hready
      obtain rfl := Option.some.inj hstep
      unfold Retries
      dsimp only
      rw [stranded_closed h hn hi hready, hi]
      simp only [Option.mem_def, Option.some.injEq, forall_eq', not_and, Bool.not_eq_true]
  | run_effect =>
    obtain rfl := Option.some.inj hstep
    exact iff_of_true (open_socket_not_stranded rfl) trivial
  | cleanup =>
    obtain rfl := Option.some.inj hstep
    refine iff_of_true (fun hs => ?_) trivial
    obtain ⟨run, hrun, _⟩ := hs.closed
    rw [cleanup_effect] at hrun
    cases hrun
  | sign_out =>
    obtain rfl := Option.some.inj hstep
    refine iff_of_true (fun hs => ?_) trivial
    have hin := hs.signed_in
    unfold Page.sign_out Page.close_current at hin
    dsimp only at hin
    split at hin <;> cases hin
  | opened i =>
    unfold Page.step at hstep
    dsimp only at hstep
    split at hstep
    · cases hstep
    · rename_i socket hi
      split_ifs at hstep with hready
      obtain rfl := Option.some.inj hstep
      obtain ⟨hcurrent, heffect⟩ := h.live i socket hi (by simp [Socket.live, hready])
      refine iff_of_true ?_ trivial
      have hget : (p.opened i socket).sockets[i]? = some { socket with ready := .open_ } := by
        unfold Page.opened Page.update Page.clear_heartbeat
        simp [hcurrent, heffect, hi]
      refine not_stranded ?_ hget rfl (by simp)
      unfold Page.opened Page.update Page.clear_heartbeat
      simp [hcurrent, heffect]
  | authed i ok =>
    unfold Page.step at hstep
    dsimp only at hstep
    refine iff_of_true (fun hs => hn ?_) trivial
    split_ifs at hstep with hmem hok
    · obtain rfl := Option.some.inj hstep
      have hsent : Stranded (p.update i (Socket.send .auth)) :=
        ⟨hs.signed_in, hs.closed, hs.no_timer⟩
      exact hsent.of_update (send_keeps .auth)
    · obtain rfl := Option.some.inj hstep
      have hclose : Stranded (p.update i Socket.close) := ⟨hs.signed_in, hs.closed, hs.no_timer⟩
      exact hclose.of_update close_keeps
  | beat interval =>
    obtain ⟨i, _, rfl⟩ := Option.map_eq_some_iff.mp hstep
    exact iff_of_true (fun hs => hn (hs.of_update (send_keeps .ping))) trivial
  | frame chat =>
    obtain ⟨i, _, rfl⟩ := Option.map_eq_some_iff.mp hstep
    exact iff_of_true (fun hs => hn (hs.of_update (send_keeps _))) trivial
  | error i token =>
    unfold Page.step at hstep
    dsimp only at hstep
    split at hstep
    · cases hstep
    · split_ifs at hstep
      obtain rfl := Option.some.inj hstep
      refine iff_of_true (fun hs => hn ?_) trivial
      have hsame := hs.of_close_current
      exact ⟨hsame.signed_in, hsame.closed, hsame.no_timer⟩
  | refreshed ok =>
    unfold Page.step at hstep
    dsimp only at hstep
    split_ifs at hstep
    obtain rfl := Option.some.inj hstep
    exact iff_of_true (fun hs => hn ⟨hs.signed_in, hs.closed, hs.no_timer⟩) trivial
  | fire =>
    obtain ⟨⟨run, wait⟩, htimer, rfl⟩ := Option.map_eq_some_iff.mp hstep
    have heffect := (h.timer run wait htimer).1
    dsimp only
    rw [if_pos heffect]
    exact iff_of_true (open_socket_not_stranded heffect) trivial

end Stranded

/-- In every run the page that is signed in has a socket, or waits to connect again, exactly when
no socket of its effect closes while another attempt is prevented. -/
theorem the_page_connects_again_iff_nothing_prevents_it {as : List Label} {p : Page}
    (hr : page.run as = some p) :
    (∀ bs p', bs <+: as → page.run bs = some p' → ¬ Stranded p') ↔ page.Meets Retries as := by
  refine Machine.always_iff_meets (I := fun p => Sound p ∧ ¬ Stranded p) ⟨sound_start, ?_⟩ ?_
    (fun _ h => h.2) ?_ hr
  · intro h
    obtain ⟨run, hrun, _⟩ := h.closed
    cases hrun
  · intro p a p' h hok hstep
    exact ⟨sound_step h.1 hstep, (stranded_step h.1 h.2 hstep).mpr hok⟩
  · intro p a p' h hstep hn
    exact (stranded_step h.1 h.2 hstep).mp hn

/-- An open socket drops, and the page goes on. -/
theorem a_page_goes_on : ∃ p, page.run [.run_effect, .opened 0, .closed 0] = some p ∧
    ¬ Stranded p :=
  ⟨_, rfl, (@the_page_connects_again_iff_nothing_prevents_it
    [.run_effect, .opened 0, .closed 0] _ rfl).mpr (by decide) _ _ (List.prefix_refl _) rfl⟩

/-- The session changes, and the next socket does not open: the page does not try again. -/
example : ¬ page.Meets Retries [.run_effect, .opened 0, .run_effect, .closed 1] := by decide

end loomic.browser_socket
