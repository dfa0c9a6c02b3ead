-- The cleanup of a session: what the block after the `catch` clauses of `run()`
-- undoes, on every way out of the coroutine and whatever the other sessions do
-- to the registry in the meantime.
import Loomic.Lib.Machine
import Loomic.SessionRegistry
import Loomic.SessionRun

open loomic.frame loomic.json loomic.session_registry loomic.session_run machines

namespace loomic.cleanup

/-! ## A session among others -/

section World

variable {α Await Event ρ : Type} [DecidableEq ρ]

/-- One coroutine with the registry, the sessions that exist, and all that the coroutine
did so far. -/
structure World (α Await ρ : Type) where
  run : Run Await
  registry : SessionRegistry ρ
  alive : ρ → Bool
  log : List (Effect α)

/-- A resumption of the coroutine, or what another session does. -/
inductive Label (Event ρ : Type)
  | resume (ev : Event)
  | insert (user_id : UserId) (s : ρ)
  | remove (user_id : UserId) (s : ρ)
  | destroy (s : ρ)

def World.perform (self : ρ) (w : World α Await ρ) (e : Effect α) : World α Await ρ :=
  match e with
  | .registry_insert user_id =>
    { w with registry := w.registry.insert user_id self, log := w.log ++ [e] }
  | .registry_remove user_id =>
    { w with registry := w.registry.remove w.alive user_id (some self), log := w.log ++ [e] }
  | e => { w with log := w.log ++ [e] }

/-- The session `self` is alive for as long as its coroutine holds it. The others come and go. -/
def world (self : ρ) (start : Run Await)
    (resume : Run Await → Event → Option (Segment α Await)) :
    Machine (World α Await ρ) (Label Event ρ) where
  start := { run := start, registry := .empty, alive := fun _ => true, log := [] }
  step w
    | .resume ev => (resume w.run ev).map fun (run, effects) =>
        effects.foldl (World.perform self) { w with run := run }
    | .insert user_id s =>
      if s ≠ self ∧ w.alive s then some { w with registry := w.registry.insert user_id s }
      else none
    | .remove user_id s =>
      if s ≠ self ∧ w.alive s then
        some { w with registry := w.registry.remove w.alive user_id (some s) }
      else none
    | .destroy s =>
      if s ≠ self then some { w with alive := Function.update w.alive s false } else none

def tcp (self : ρ) (verify : Bytes → Option UserId) :
    Machine (World α Session.Await ρ) (Label (Session.Event α) ρ) :=
  world self Session.start fun r => Session.resume r verify

def ws (self : ρ) (verify : Bytes → Option UserId) (dumps : α → Bool) :
    Machine (World α WebSocketSession.Await ρ) (Label (WebSocketSession.Event α) ρ) :=
  world self WebSocketSession.start fun r => WebSocketSession.resume r verify dumps

/-- The authentication of the coroutine's user has succeeded. -/
def Authenticated (w : World α Await ρ) : Prop := .registry_insert w.run.user_id ∈ w.log

/-- How often the gauge `active_sessions` was incremented, and how often decremented. -/
def increments (log : List (Effect α)) : Nat := log.countP (· matches .active_sessions_increment)

def decrements (log : List (Effect α)) : Nat := log.countP (· matches .active_sessions_decrement)

/-- Everything that an authenticated session owes at its end. -/
structure Cleaned (s : ρ) (w : World α Await ρ) : Prop where
  lookup : w.registry.lookup w.alive w.run.user_id ≠ some s
  incremented : increments w.log = 1
  decremented : decrements w.log = 1
  del_presence : Effect.del_presence w.run.user_id ∈ w.log
  set_last_seen : ∃ ts_ms, Effect.set_last_seen w.run.user_id ts_ms ∈ w.log

/-! ## The phases of a coroutine -/

inductive Phase
  | auth
  | live
  | del_presence
  | set_last_seen
  | done
  deriving DecidableEq

/-- An effect that neither touches the registry nor counts a session. -/
def Quiet : Effect α → Prop
  | .registry_insert _ | .registry_remove _ => False
  | .active_sessions_increment | .active_sessions_decrement => False
  | _ => True

theorem quiet_one {e : Effect α} (h : Quiet e) : ∀ e' ∈ [e], Quiet e' :=
  List.forall_mem_singleton.mpr h

/-- What the block after the `catch` clauses does for a user. -/
def farewell (user_id : UserId) : List (Effect α) :=
  [.cancel_heartbeat, .active_sessions_decrement, .active_connections_decrement,
    .registry_remove user_id, .del_presence user_id]

/-- What a resumption can do, by the phases before and after it. `oversized` are the events
on which the coroutine returns from the middle of its loop. -/
inductive Moves (phase : Await → Phase) (oversized : Event → Prop) (r : Run Await)
    (ev : Event) : Segment α Await → Prop
  | wait {r' es} (h : phase r.await = .auth) (h' : phase r'.await = .auth) (hu : r'.user_id = 0)
      (hev : ¬ oversized ev) (hq : ∀ e ∈ es, Quiet e) : Moves phase oversized r ev (r', es)
  | refuse {r' es} (h : phase r.await = .auth) (h' : phase r'.await = .done)
      (hq : ∀ e ∈ es, Quiet e) : Moves phase oversized r ev (r', es)
  | enter {r' es} (h : phase r.await = .auth) (h' : phase r'.await = .live)
      (hev : ¬ oversized ev) (hq : ∀ e ∈ es, Quiet e) : Moves phase oversized r ev
        (r', .registry_insert r'.user_id :: .active_sessions_increment :: es)
  | stay {r' es} (h : phase r.await = .live) (h' : phase r'.await = .live)
      (hu : r'.user_id = r.user_id) (hev : ¬ oversized ev) (hq : ∀ e ∈ es, Quiet e) :
      Moves phase oversized r ev (r', es)
  | co_return {r'} (h : phase r.await = .live) (h' : phase r'.await = .done)
      (hu : r'.user_id = r.user_id) (hev : oversized ev) : Moves phase oversized r ev (r', [])
  | nobody {r' es} (h : phase r.await = .live) (h' : phase r'.await = .done)
      (hu : r'.user_id = r.user_id) (h0 : r.user_id = 0) (hq : ∀ e ∈ es, Quiet e) :
      Moves phase oversized r ev (r', es)
  | leave {r' es} (h : phase r.await = .live) (h' : phase r'.await = .del_presence)
      (hu : r'.user_id = r.user_id) (h0 : r.user_id ≠ 0) (hev : ¬ oversized ev)
      (hq : ∀ e ∈ es, Quiet e) : Moves phase oversized r ev (r', es ++ farewell r.user_id)
  | last_seen {r'} (h : phase r.await = .del_presence) (h' : phase r'.await = .set_last_seen)
      (hu : r'.user_id = r.user_id) (hev : ¬ oversized ev) (ts_ms : Int64) :
      Moves phase oversized r ev (r', [.set_last_seen r.user_id ts_ms])
  | finish {r' es} (h : phase r.await = .set_last_seen) (h' : phase r'.await = .done)
      (hu : r'.user_id = r.user_id) (hev : ¬ oversized ev) (hq : ∀ e ∈ es, Quiet e) :
      Moves phase oversized r ev (r', es)

end World

/-! ## The two coroutines -/

def tcp_phase : Session.Await → Phase
  | .auth_header | .auth_payload _ | .auth_error => .auth
  | .del_presence => .del_presence
  | .set_last_seen => .set_last_seen
  | .done => .done
  | _ => .live

def ws_phase : WebSocketSession.Await → Phase
  | .accept | .auth_text | .auth_error => .auth
  | .del_presence => .del_presence
  | .set_last_seen => .set_last_seen
  | .done => .done
  | _ => .live

def tcp_oversized : Session.Event α → Prop
  | .header hdr _ => Session.Oversized hdr
  | _ => False

def ws_oversized : WebSocketSession.Event α → Prop := fun _ => False

abbrev TcpMoves (r : Run Session.Await) (ev : Session.Event α)
    (seg : Segment α Session.Await) : Prop := Moves tcp_phase tcp_oversized r ev seg

abbrev WsMoves (r : Run WebSocketSession.Await) (ev : WebSocketSession.Event α)
    (seg : Segment α WebSocketSession.Await) : Prop := Moves ws_phase ws_oversized r ev seg

section Moves

variable {α Await Event : Type} {phase : Await → Phase} {oversized : Event → Prop}
  {r : Run Await} {ev : Event}

theorem moves_cleanup {del_presence done : Await} {es : List (Effect α)}
    (hlive : phase r.await = .live) (hdel : phase del_presence = .del_presence)
    (hdone : phase done = .done) (hev : ¬ oversized ev) (hq : ∀ e ∈ es, Quiet e) :
    let seg : Segment α Await := r.cleanup del_presence done
    Moves phase oversized r ev (seg.1, es ++ seg.2) := by
  unfold Run.cleanup
  split
  · rename_i h0
    refine .nobody hlive hdone rfl h0 fun e he => ?_
    simp only [Run.to, List.mem_append, List.mem_singleton] at he
    rcases he with he | rfl
    · exact hq e he
    · trivial
  · rename_i h0
    exact .leave hlive hdel rfl h0 hev hq

/-- An exception before the authentication. -/
theorem moves_refused {del_presence done : Await} (hauth : phase r.await = .auth)
    (hdone : phase done = .done) (h0 : r.user_id = 0) :
    let seg : Segment α Await := r.cleanup del_presence done
    Moves phase oversized r ev seg := by
  rw [Run.cleanup, if_pos h0]
  exact .refuse hauth hdone (quiet_one trivial)

theorem moves_last_seen {set_last_seen : Await} {ts_ms : Int64}
    (hdel : phase r.await = .del_presence) (hset : phase set_last_seen = .set_last_seen)
    (hev : ¬ oversized ev) :
    let seg : Segment α Await := r.to set_last_seen [.set_last_seen r.user_id ts_ms]
    Moves phase oversized r ev seg :=
  .last_seen hdel (by exact hset) (by rfl) hev ts_ms

end Moves

section Tcp

variable {r : Run Session.Await} {ev : Session.Event α}

theorem tcp_phase_of_in_try {await : Session.Await} (h : await.in_try) :
    tcp_phase await = .auth ∨ tcp_phase await = .live := by
  cases await with
  | del_presence | set_last_seen | done => cases h
  | _ => first | exact .inl rfl | exact .inr rfl

theorem tcp_moves_read_header {es : List (Effect α)} (hlive : tcp_phase r.await = .live)
    (hev : ¬ tcp_oversized ev) (hq : ∀ e ∈ es, Quiet e) :
    TcpMoves r ev (Session.read_header r es) := by
  refine .stay hlive rfl rfl hev fun e he => ?_
  simp only [List.mem_append, List.mem_singleton] at he
  rcases he with he | rfl
  · exact hq e he
  · trivial

theorem tcp_moves_raise (hlive : tcp_phase r.await = .live) :
    TcpMoves r .raised (Session.raise r : Segment α Session.Await) :=
  moves_cleanup hlive rfl rfl id (List.forall_mem_nil Quiet)

theorem tcp_moves_authenticate {verify : Bytes → Option UserId} {token : Bytes}
    (hauth : tcp_phase r.await = .auth) (h0 : r.user_id = 0) (hev : ¬ tcp_oversized ev) :
    TcpMoves r ev (Session.authenticate r verify token) := by
  unfold Session.authenticate
  split
  · exact .wait hauth rfl h0 hev (quiet_one trivial)
  · exact .enter hauth rfl hev (quiet_one trivial)

theorem tcp_moves_chat {hdr : FrameHeader} {payload : Bytes} {allowed : Bool}
    (hlive : tcp_phase r.await = .live) (hev : ¬ tcp_oversized ev) :
    TcpMoves r ev (Session.chat r hdr payload allowed) := by
  unfold Session.chat
  split <;> exact .stay hlive rfl rfl hev (quiet_one trivial)

theorem tcp_moves_typing_fan_out {hdr : FrameHeader} {members : List UserId}
    (hlive : tcp_phase r.await = .live) (hev : ¬ tcp_oversized ev) :
    TcpMoves r ev (Session.typing_fan_out r hdr members) := by
  refine tcp_moves_read_header hlive hev fun e he => ?_
  obtain ⟨member_id, _, rfl⟩ := List.mem_map.mp he
  trivial

theorem tcp_moves_dispatch {hdr : FrameHeader} {allowed : Bool}
    (hlive : tcp_phase r.await = .live) :
    TcpMoves r (.header hdr allowed)
      (Session.dispatch r hdr allowed : Segment α Session.Await) := by
  have hsmall : ¬ (hdr.type = .CHAT ∧ Session.kMaxPayload < hdr.payload_len) →
      ¬ tcp_oversized (.header hdr allowed : Session.Event α) := id
  unfold Session.dispatch
  split_ifs with hping hchat hbig hempty htyping hgroup hskip
  · exact .stay hlive rfl rfl (hsmall fun h => by simp [hping] at h; cases h.1)
      (by simp [Quiet])
  · exact .co_return hlive rfl rfl ⟨hchat, hbig⟩
  · exact tcp_moves_chat hlive (hsmall fun h => hbig h.2)
  · exact .stay hlive rfl rfl (hsmall fun h => hbig h.2) (quiet_one trivial)
  · exact .stay hlive rfl rfl (hsmall fun h => hchat h.1) (quiet_one trivial)
  · exact tcp_moves_read_header hlive (hsmall fun h => hchat h.1) (quiet_one trivial)
  · exact .stay hlive rfl rfl (hsmall fun h => hchat h.1) (quiet_one trivial)
  · exact tcp_moves_read_header hlive (hsmall fun h => hchat h.1) (by simp)

theorem tcp_moves {verify : Bytes → Option UserId} {seg : Segment α Session.Await}
    (h0 : tcp_phase r.await = .auth → r.user_id = 0)
    (h : Session.resume r verify ev = some seg) :
    TcpMoves r ev seg := by
  unfold Session.resume at h
  split at h <;> rename_i hawait
  -- the waits of the authentication
  · have hauth : tcp_phase r.await = .auth := by rw [hawait]; rfl
    rename_i hdr allowed
    split_ifs at h with hbad hempty <;> cases h
    · exact .refuse hauth rfl (by simp)
    all_goals
      have hev : ¬ tcp_oversized (.header hdr allowed : Session.Event α) := fun hbig => by
        simp [hbig.1, MsgType.CHAT, MsgType.AUTH] at hbad
    · exact tcp_moves_authenticate hauth (h0 hauth) hev
    · exact .wait hauth rfl (h0 hauth) hev (quiet_one trivial)
  · have hauth : tcp_phase r.await = .auth := by rw [hawait]; rfl
    split_ifs at h
    cases h
    exact tcp_moves_authenticate hauth (h0 hauth) id
  · cases h
    exact .refuse (by rw [hawait]; rfl) rfl (by simp)
  -- the way to the loop
  · cases h
    exact .stay (by rw [hawait]; rfl) rfl rfl id (quiet_one trivial)
  · cases h
    exact .stay (by rw [hawait]; rfl) rfl rfl id (quiet_one trivial)
  · cases h
    refine tcp_moves_read_header (by rw [hawait]; rfl) id fun e he => ?_
    simp only [List.mem_append, List.mem_map, List.mem_singleton] at he
    rcases he with ⟨m, _, rfl⟩ | rfl <;> trivial
  -- the loop
  · cases h
    exact tcp_moves_dispatch (by rw [hawait]; rfl)
  · cases h
    exact .stay (by rw [hawait]; rfl) rfl rfl id (quiet_one trivial)
  · cases h
    exact tcp_moves_read_header (by rw [hawait]; rfl) id (by simp)
  · split_ifs at h
    cases h
    exact tcp_moves_chat (by rw [hawait]; rfl) id
  · cases h
    exact tcp_moves_read_header (by rw [hawait]; rfl) id (by simp)
  · cases h
    exact tcp_moves_read_header (by rw [hawait]; rfl) id (by simp)
  · split_ifs at h <;> cases h
    · exact .stay (by rw [hawait]; rfl) rfl rfl id (quiet_one trivial)
    · exact tcp_moves_typing_fan_out (by rw [hawait]; rfl) id
  · cases h
    exact tcp_moves_typing_fan_out (by rw [hawait]; rfl) id
  · split_ifs at h
    cases h
    exact tcp_moves_read_header (by rw [hawait]; rfl) id (by simp)
  -- the cleanup
  · cases h
    have hphase : tcp_phase r.await = .del_presence := by rw [hawait]; rfl
    exact moves_last_seen hphase rfl id
  · cases h
    exact .finish (by rw [hawait]; rfl) rfl rfl id (quiet_one trivial)
  · split_ifs at h with htry
    cases h
    rcases hphase : tcp_phase r.await with _ | _ | _ | _ | _
    · exact moves_refused hphase rfl (h0 hphase)
    · exact tcp_moves_raise hphase
    all_goals
      have hin := tcp_phase_of_in_try htry
      rw [hphase] at hin
      rcases hin with hin | hin <;> cases hin
  · cases h

end Tcp

section WebSocket

variable {r : Run WebSocketSession.Await} {ev : WebSocketSession.Event α}

theorem ws_phase_of_in_try {await : WebSocketSession.Await} (h : await.in_try) :
    ws_phase await = .auth ∨ ws_phase await = .live := by
  cases await with
  | del_presence | set_last_seen | done => cases h
  | _ => first | exact .inl rfl | exact .inr rfl

theorem ws_moves_read_text {es : List (Effect α)} (hlive : ws_phase r.await = .live)
    (hq : ∀ e ∈ es, Quiet e) : WsMoves r ev (WebSocketSession.read_text r es) := by
  refine .stay hlive rfl rfl id fun e he => ?_
  simp only [List.mem_append, List.mem_singleton] at he
  rcases he with he | rfl
  · exact hq e he
  · trivial

theorem ws_moves_raise {es : List (Effect α)} (hlive : ws_phase r.await = .live)
    (hq : ∀ e ∈ es, Quiet e) :
    let seg : Segment α WebSocketSession.Await := WebSocketSession.raise r
    WsMoves r ev (seg.1, es ++ seg.2) :=
  moves_cleanup hlive rfl rfl id hq

theorem ws_moves_authenticate {verify : Bytes → Option UserId} {auth_j : Json}
    (hauth : ws_phase r.await = .auth) (h0 : r.user_id = 0) :
    WsMoves r ev (WebSocketSession.authenticate r verify auth_j) := by
  unfold WebSocketSession.authenticate
  split
  · exact moves_refused hauth rfl h0
  · split_ifs
    · exact .refuse hauth rfl (by simp)
    · split
      · exact moves_refused hauth rfl h0
      · split
        · exact .wait hauth rfl h0 id (quiet_one trivial)
        · exact .enter hauth rfl id (by simp [Quiet])

theorem ws_moves_dispatch {j : Json} (hlive : ws_phase r.await = .live) :
    WsMoves r ev (WebSocketSession.dispatch r j) := by
  unfold WebSocketSession.dispatch
  split
  · exact ws_moves_raise hlive (List.forall_mem_nil Quiet)
  · split_ifs
    · exact ws_moves_read_text hlive (by simp [Quiet])
    · exact .stay hlive rfl rfl id (quiet_one (by trivial))
    · exact ws_moves_read_text hlive (by simp)

theorem ws_moves_flush {dumps : α → Bool} {batch : List α} (hlive : ws_phase r.await = .live) :
    WsMoves r ev (WebSocketSession.flush r dumps batch) := by
  have hq : ∀ e ∈ (batch.takeWhile dumps).map Effect.enqueue, Quiet e := by
    intro e he
    obtain ⟨m, _, rfl⟩ := List.mem_map.mp he
    trivial
  unfold WebSocketSession.flush
  split_ifs
  · refine ws_moves_read_text hlive fun e he => ?_
    rcases List.mem_append.mp he with he | he
    · exact hq e he
    · rw [List.mem_singleton.mp he]; trivial
  · exact ws_moves_raise hlive hq

theorem ws_moves {verify : Bytes → Option UserId} {dumps : α → Bool}
    {seg : Segment α WebSocketSession.Await}
    (h0 : ws_phase r.await = .auth → r.user_id = 0)
    (h : WebSocketSession.resume r verify dumps ev = some seg) :
    WsMoves r ev seg := by
  unfold WebSocketSession.resume at h
  split at h <;> rename_i hawait
  -- the waits of the authentication
  · have hauth : ws_phase r.await = .auth := by rw [hawait]; rfl
    cases h
    exact .wait hauth rfl (h0 hauth) id (quiet_one trivial)
  · cases h
    exact .refuse (by rw [hawait]; rfl) rfl (by simp)
  · have hauth : ws_phase r.await = .auth := by rw [hawait]; rfl
    cases h
    exact ws_moves_authenticate hauth (h0 hauth)
  · cases h
    exact .refuse (by rw [hawait]; rfl) rfl (by simp)
  -- the way to the loop
  · cases h
    exact .stay (by rw [hawait]; rfl) rfl rfl id (quiet_one trivial)
  · cases h
    exact ws_moves_flush (by rw [hawait]; rfl)
  -- the loop
  · cases h
    exact ws_moves_read_text (by rw [hawait]; rfl) (by simp)
  · cases h
    exact ws_moves_read_text (by rw [hawait]; rfl) (by simp)
  · cases h
    exact ws_moves_dispatch (by rw [hawait]; rfl)
  · cases h
    exact ws_moves_read_text (by rw [hawait]; rfl) (by simp)
  -- the cleanup
  · cases h
    have hphase : ws_phase r.await = .del_presence := by rw [hawait]; rfl
    exact moves_last_seen hphase rfl id
  · cases h
    exact .finish (by rw [hawait]; rfl) rfl rfl id (quiet_one trivial)
  · split_ifs at h with htry
    cases h
    rcases hphase : ws_phase r.await with _ | _ | _ | _ | _
    · exact moves_refused hphase rfl (h0 hphase)
    · exact ws_moves_raise hphase (List.forall_mem_nil Quiet)
    all_goals
      have hin := ws_phase_of_in_try htry
      rw [hphase] at hin
      rcases hin with hin | hin <;> cases hin
  · simp at h

end WebSocket

/-! ## The effects of a segment -/

section Effects

variable {α : Type}

@[simp] theorem increments_farewell (u : UserId) :
    increments (farewell u : List (Effect α)) = 0 := rfl

@[simp] theorem decrements_farewell (u : UserId) :
    decrements (farewell u : List (Effect α)) = 1 := rfl

theorem increments_quiet {es : List (Effect α)} (hq : ∀ e ∈ es, Quiet e) : increments es = 0 := by
  refine List.countP_eq_zero.mpr fun e he h => ?_
  have hquiet := hq e he
  cases e with
  | active_sessions_increment => exact hquiet
  | _ => cases h

theorem decrements_quiet {es : List (Effect α)} (hq : ∀ e ∈ es, Quiet e) : decrements es = 0 := by
  refine List.countP_eq_zero.mpr fun e he h => ?_
  have hquiet := hq e he
  cases e with
  | active_sessions_decrement => exact hquiet
  | _ => cases h

@[simp] theorem increments_append (l l' : List (Effect α)) :
    increments (l ++ l') = increments l + increments l' := by simp [increments]

@[simp] theorem decrements_append (l l' : List (Effect α)) :
    decrements (l ++ l') = decrements l + decrements l' := by simp [decrements]

theorem increments_enter (u : UserId) (es : List (Effect α)) : increments
    (.registry_insert u :: .active_sessions_increment :: es) = increments es + 1 := by
  simp [increments]

theorem decrements_enter (u : UserId) (es : List (Effect α)) : decrements
    (.registry_insert u :: .active_sessions_increment :: es) = decrements es := by
  simp [decrements]

variable {Await ρ : Type} [DecidableEq ρ] {self : ρ}

theorem perform_quiet {w : World α Await ρ} {es : List (Effect α)} (hq : ∀ e ∈ es, Quiet e) :
    es.foldl (World.perform self) w = { w with log := w.log ++ es } := by
  induction es generalizing w with
  | nil => simp
  | cons e es ih =>
    have hone : w.perform self e = { w with log := w.log ++ [e] } := by
      have hquiet := hq e List.mem_cons_self
      cases e with
      | registry_insert user_id => exact hquiet.elim
      | registry_remove user_id => exact hquiet.elim
      | _ => rfl
    rw [List.foldl_cons, hone, ih fun e he => hq e (List.mem_cons_of_mem _ he)]
    simp

theorem perform_enter {w : World α Await ρ} {u : UserId} {es : List (Effect α)}
    (hq : ∀ e ∈ es, Quiet e) :
    (.registry_insert u :: .active_sessions_increment :: es).foldl (World.perform self) w =
      { w with registry := w.registry.insert u self
               log := w.log ++ .registry_insert u :: .active_sessions_increment :: es } := by
  rw [List.foldl_cons, List.foldl_cons, perform_quiet hq]
  simp [World.perform]

theorem perform_leave {w : World α Await ρ} {u : UserId} {es : List (Effect α)}
    (hq : ∀ e ∈ es, Quiet e) :
    (es ++ farewell u).foldl (World.perform self) w =
      { w with registry := w.registry.remove w.alive u (some self)
               log := w.log ++ (es ++ farewell u) } := by
  rw [List.foldl_append, perform_quiet hq]
  simp [World.perform, farewell]

end Effects

/-! ## What a run keeps -/

section Invariant

variable {α Await Event ρ : Type} [DecidableEq ρ] {self : ρ} {phase : Await → Phase}
  {oversized : Event → Prop} {start : Run Await}
  {resume : Run Await → Event → Option (Segment α Await)}

/-- The coroutine met no oversized event. -/
def Small (oversized : Event → Prop) (as : List (Label Event ρ)) : Prop :=
  ∀ ev, .resume ev ∈ as → ¬ oversized ev

/-- The registry holds the session under no other user than its own. -/
def Own (self : ρ) (w : World α Await ρ) : Prop :=
  ∀ u, w.registry.map u = some self → u = w.run.user_id

/-- What holds in each phase. A coroutine that is done either never let a user in, or owes
the cleanup, or has done all of it. -/
def Inv (self : ρ) (phase : Await → Phase) (oversized : Event → Prop)
    (as : List (Label Event ρ)) (w : World α Await ρ) : Prop :=
  w.alive self = true ∧ Own self w ∧
  match phase w.run.await with
  | .auth => Small oversized as ∧ w.run.user_id = 0 ∧ (∀ u, .registry_insert u ∉ w.log) ∧
      (∀ u, w.registry.map u ≠ some self) ∧ increments w.log = 0 ∧ decrements w.log = 0
  | .live => Small oversized as ∧ increments w.log = 1 ∧ decrements w.log = 0
  | .del_presence => Small oversized as ∧ w.run.user_id ≠ 0 ∧
      (∀ u, w.registry.map u ≠ some self) ∧ increments w.log = 1 ∧ decrements w.log = 1 ∧
      .del_presence w.run.user_id ∈ w.log
  | .set_last_seen => Small oversized as ∧ w.run.user_id ≠ 0 ∧
      (∀ u, w.registry.map u ≠ some self) ∧ increments w.log = 1 ∧ decrements w.log = 1 ∧
      .del_presence w.run.user_id ∈ w.log ∧ ∃ ts_ms, .set_last_seen w.run.user_id ts_ms ∈ w.log
  | .done => (∀ u, .registry_insert u ∉ w.log) ∨
      decrements w.log = 0 ∧ (w.run.user_id = 0 ∨ ¬ Small oversized as) ∨
      Cleaned self w ∧ w.run.user_id ≠ 0 ∧ Small oversized as

omit [DecidableEq ρ] in
theorem small_resume {as : List (Label Event ρ)} {ev : Event} (h : Small oversized as)
    (hev : ¬ oversized ev) : Small oversized (as ++ [.resume ev]) := by
  intro ev' he
  simp only [List.mem_append, List.mem_singleton, Label.resume.injEq] at he
  rcases he with he | rfl
  · exact h _ he
  · exact hev

theorem inv_resume {as : List (Label Event ρ)} {w : World α Await ρ} {ev : Event}
    {seg : Segment α Await} (hi : Inv self phase oversized as w)
    (hm : Moves phase oversized w.run ev seg) :
    Inv self phase oversized (as ++ [.resume ev])
      (seg.2.foldl (World.perform self) { w with run := seg.1 }) := by
  obtain ⟨halive, hown, hphase⟩ := hi
  cases hm with
  | wait h h' hu hev hq =>
    rw [perform_quiet hq]
    simp only [h] at hphase
    obtain ⟨hsmall, _, hno, hmap, hinc, hdec⟩ := hphase
    refine ⟨halive, fun u hu => absurd hu (hmap u), ?_⟩
    simp only [h']
    refine ⟨small_resume hsmall hev, hu, fun u he => ?_, hmap, ?_, ?_⟩
    · rcases List.mem_append.mp he with he | he
      · exact hno u he
      · exact hq _ he
    · simp [hinc, increments_quiet hq]
    · simp [hdec, decrements_quiet hq]
  | refuse h h' hq =>
    rw [perform_quiet hq]
    simp only [h] at hphase
    obtain ⟨_, _, hno, hmap, _⟩ := hphase
    refine ⟨halive, fun u hu => absurd hu (hmap u), ?_⟩
    simp only [h']
    refine .inl fun u he => ?_
    rcases List.mem_append.mp he with he | he
    · exact hno u he
    · exact hq _ he
  | enter h h' hev hq =>
    rw [perform_enter hq]
    simp only [h] at hphase
    obtain ⟨hsmall, _, _, hmap, hinc, hdec⟩ := hphase
    refine ⟨halive, fun u hu => ?_, ?_⟩
    · simp only [map_insert] at hu
      split at hu
      · assumption
      · exact absurd hu (hmap u)
    · have h1 := increments_quiet hq
      have h2 := decrements_quiet hq
      simp only [h']
      refine ⟨small_resume hsmall hev, ?_, ?_⟩
      · rw [increments_append, increments_enter, hinc, h1]
      · rw [decrements_append, decrements_enter, hdec, h2]
  | stay h h' hu hev hq =>
    rw [perform_quiet hq]
    simp only [h] at hphase
    obtain ⟨hsmall, hinc, hdec⟩ := hphase
    refine ⟨halive, fun u hm => (hown u hm).trans hu.symm, ?_⟩
    simp only [h']
    exact ⟨small_resume hsmall hev, by simp [hinc, increments_quiet hq],
      by simp [hdec, decrements_quiet hq]⟩
  | co_return h h' hu hev =>
    simp only [h] at hphase
    refine ⟨halive, fun u hm => (hown u hm).trans hu.symm, ?_⟩
    simp only [List.foldl_nil, h']
    exact .inr (.inl ⟨hphase.2.2, .inr fun hsmall => hsmall ev (by simp) hev⟩)
  | nobody h h' hu h0 hq =>
    rw [perform_quiet hq]
    simp only [h] at hphase
    refine ⟨halive, fun u hm => (hown u hm).trans hu.symm, ?_⟩
    simp only [h']
    exact .inr (.inl ⟨by simp [hphase.2.2, decrements_quiet hq], .inl (hu.trans h0)⟩)
  | leave h h' hu h0 hev hq =>
    rw [perform_leave hq]
    simp only [h] at hphase
    obtain ⟨hsmall, hinc, hdec⟩ := hphase
    have hmap : ∀ u, (w.registry.remove w.alive w.run.user_id (some self)).map u ≠ some self := by
      intro u hm
      rw [map_remove _ _ _ _ _ halive] at hm
      split at hm
      · simp at hm
      · rename_i hne
        have hu := hown u hm
        exact hne ⟨hu, hu ▸ hm⟩
    refine ⟨halive, fun u hm => absurd hm (hmap u), ?_⟩
    simp only [h']
    exact ⟨small_resume hsmall hev, by simp [hu, h0], hmap,
      by simp [hinc, increments_quiet hq], by simp [hdec, decrements_quiet hq],
      by simp [hu, farewell]⟩
  | last_seen h h' hu hev ts_ms =>
    simp only [h] at hphase
    obtain ⟨hsmall, h0, hmap, hinc, hdec, hdel⟩ := hphase
    have hq : ∀ e ∈ [(.set_last_seen w.run.user_id ts_ms : Effect α)], Quiet e := quiet_one trivial
    rw [perform_quiet hq]
    refine ⟨halive, fun u hm => absurd hm (hmap u), ?_⟩
    simp only [h']
    exact ⟨small_resume hsmall hev, by simp [hu, h0], hmap,
      by simp [hinc, increments_quiet hq], by simp [hdec, decrements_quiet hq],
      by simp [hu, hdel], ts_ms, by simp [hu]⟩
  | finish h h' hu hev hq =>
    rw [perform_quiet hq]
    simp only [h] at hphase
    obtain ⟨hsmall, h0, hmap, hinc, hdec, hdel, ts_ms, hset⟩ := hphase
    refine ⟨halive, fun u hm => absurd hm (hmap u), ?_⟩
    simp only [h']
    refine .inr (.inr ⟨⟨fun hl => hmap _ (lookup_eq_some.mp hl).1, ?_, ?_, ?_, ts_ms, ?_⟩,
      by simp [hu, h0], small_resume hsmall hev⟩)
    · simp [hinc, increments_quiet hq]
    · simp [hdec, decrements_quiet hq]
    · simp [hu, hdel]
    · simp [hu, hset]

omit [DecidableEq ρ] in
/-- The other sessions change the registry, but not the entry of `self`. -/
theorem inv_other {as : List (Label Event ρ)} {w : World α Await ρ} {a : Label Event ρ}
    {reg : SessionRegistry ρ} {alive : ρ → Bool} (hi : Inv self phase oversized as w)
    (ha : ∀ ev, a ≠ .resume ev) (halive : alive self = true)
    (hreg : ∀ u, reg.map u = some self → w.registry.map u = some self) :
    Inv self phase oversized (as ++ [a]) { w with registry := reg, alive := alive } := by
  obtain ⟨hself, hown, hphase⟩ := hi
  have hsmall : Small oversized (as ++ [a]) ↔ Small oversized as := by
    simp only [Small, List.mem_append, List.mem_singleton]
    refine forall_congr' fun ev => ?_
    have := ha ev
    grind
  refine ⟨halive, fun u hm => hown u (hreg u hm), ?_⟩
  simp only [hsmall]
  split at hphase <;> rename_i h
  · obtain ⟨hs, h0, hno, hmap, hcounts⟩ := hphase
    exact ⟨hs, h0, hno, fun u hm => hmap u (hreg u hm), hcounts⟩
  · exact hphase
  · obtain ⟨hs, h0, hmap, hlog⟩ := hphase
    exact ⟨hs, h0, fun u hm => hmap u (hreg u hm), hlog⟩
  · obtain ⟨hs, h0, hmap, hlog⟩ := hphase
    exact ⟨hs, h0, fun u hm => hmap u (hreg u hm), hlog⟩
  · rcases hphase with h | h | ⟨⟨hl, hinc, hdec, hdel, hset⟩, h0, hs⟩
    · exact .inl h
    · exact .inr (.inl h)
    · refine .inr (.inr ⟨⟨fun hm => hl ?_, hinc, hdec, hdel, hset⟩, h0, hs⟩)
      exact lookup_eq_some.mpr ⟨hreg _ (lookup_eq_some.mp hm).1, hself⟩

/-- `Inv` holds after every run of a coroutine that moves by the phases. -/
theorem inv_run (hstart : phase start.await = .auth) (huser : start.user_id = 0)
    (hmoves : ∀ r ev seg, (phase r.await = .auth → r.user_id = 0) → resume r ev = some seg →
      Moves phase oversized r ev seg) {as : List (Label Event ρ)} {w : World α Await ρ}
    (hr : (world self start resume).run as = some w) : Inv self phase oversized as w := by
  refine Machine.run_induction ?_ ?_ hr
  · refine ⟨rfl, fun u hm => by simp [world, SessionRegistry.empty] at hm, ?_⟩
    simp only [world, hstart]
    exact ⟨fun _ h => by simp at h, huser, by simp, by simp [SessionRegistry.empty], rfl, rfl⟩
  · intro as w a w' _ hi hs
    have hown : ∀ s, s ≠ self → ∀ u v, (w.registry.insert u s).map v = some self →
        w.registry.map v = some self := by
      intro s hne u v hm
      simp only [map_insert] at hm
      split at hm
      · exact absurd (Option.some.inj hm) hne
      · exact hm
    cases a with
    | resume ev =>
      obtain ⟨⟨r', es⟩, hseg, rfl⟩ := Option.map_eq_some_iff.mp hs
      refine inv_resume hi (hmoves _ _ _ (fun hauth => ?_) hseg)
      have hphase := hi.2.2
      simp only [hauth] at hphase
      exact hphase.2.1
    | insert u s =>
      simp only [world] at hs
      split_ifs at hs with hne
      cases hs
      exact inv_other hi (fun _ => by simp) hi.1 (hown s hne.1 u)
    | remove u s =>
      simp only [world] at hs
      split_ifs at hs with hne
      cases hs
      refine inv_other hi (fun _ => by simp) hi.1 fun v hm => ?_
      rw [map_remove _ _ _ _ _ hne.2] at hm
      split at hm
      · simp at hm
      · exact hm
    | destroy s =>
      simp only [world] at hs
      split_ifs at hs with hne
      cases hs
      exact inv_other hi (fun _ => by simp) (by simp [Ne.symm hne, hi.1]) fun v hm => hm

omit [DecidableEq ρ] in
/-- A session that let its user in and is done has cleaned up, or skipped all of it. -/
theorem cleaned_iff_small {as : List (Label Event ρ)} {w : World α Await ρ}
    (hi : Inv self phase oversized as w) (hdone : phase w.run.await = .done)
    (hauth : Authenticated w) :
    Cleaned self w ↔ w.run.user_id ≠ 0 ∧ Small oversized as := by
  have hphase := hi.2.2
  simp only [hdone] at hphase
  rcases hphase with hno | ⟨hdec, hwhy⟩ | ⟨hc, h0, hs⟩
  · exact absurd hauth (hno _)
  · constructor
    · intro hc
      simp [hc.decremented] at hdec
    · rintro ⟨h0, hs⟩
      rcases hwhy with h | h
      · exact absurd h h0
      · exact absurd hs h
  · exact ⟨fun _ => ⟨h0, hs⟩, fun _ => hc⟩

end Invariant

/-! ## The laws -/

/-- A session whose `run()` ends is cleaned up exactly when its user id is not 0 and, over TCP,
no CHAT header announced more than a mebibyte. -/
theorem a_session_is_cleaned_up_unless_a_frame_is_oversized {α ρ : Type} [DecidableEq ρ]
    (self : ρ) (verify : Bytes → Option UserId) (dumps : α → Bool) :
    (∀ as (w : World α Session.Await ρ), (tcp self verify).run as = some w →
      w.run.await = .done → Authenticated w →
      (Cleaned self w ↔ w.run.user_id ≠ 0 ∧
        ∀ hdr allowed, .resume (.header hdr allowed) ∈ as → ¬ Session.Oversized hdr)) ∧
    ∀ as (w : World α WebSocketSession.Await ρ), (ws self verify dumps).run as = some w →
      w.run.await = .done → Authenticated w → (Cleaned self w ↔ w.run.user_id ≠ 0) := by
  constructor
  · intro as w hr hdone hauth
    have hi : Inv self tcp_phase tcp_oversized as w :=
      inv_run rfl rfl (fun r ev seg h0 h => tcp_moves h0 h) hr
    rw [cleaned_iff_small hi (by rw [hdone]; rfl) hauth]
    refine and_congr_right fun _ => ⟨fun h hdr allowed he => h _ he, fun h ev he => ?_⟩
    cases ev with
    | header hdr allowed => exact h hdr allowed he
    | _ => exact id
  · intro as w hr hdone hauth
    have hi : Inv self ws_phase ws_oversized as w :=
      inv_run rfl rfl (fun r ev seg h0 h => ws_moves h0 h) hr
    rw [cleaned_iff_small hi (by rw [hdone]; rfl) hauth]
    exact and_iff_left fun _ _ => id

/-- A client that authenticates, is served, and then sends the last header. -/
def tcp_client (last : Session.Event Unit) : List (Label (Session.Event Unit) Nat) :=
  [.header { payload_len := 1, msg_type := MsgType.AUTH.byte } true, .payload [0] true,
    .replied 0, .written, .frames [], last].map .resume

def ws_client (last : WebSocketSession.Event Unit) :
    List (Label (WebSocketSession.Event Unit) Nat) :=
  [.accepted, .text (some (.object [("type", .string "auth")])), .replied 0, .frames [],
    last].map .resume

/-- The connection is lost while the loop waits for a header, or for a text frame. -/
def tcp_lost : List (Label (Session.Event Unit) Nat) :=
  tcp_client .raised ++ [.replied 0, .replied 5].map .resume

def ws_lost : List (Label (WebSocketSession.Event Unit) Nat) :=
  ws_client .raised ++ [.replied 0, .replied 5].map .resume

theorem a_session_that_loses_its_connection_is_cleaned_up :
    (∃ w, (tcp 0 fun _ => some 7).run tcp_lost = some w ∧ Cleaned 0 w) ∧
    ∃ w, (ws 0 (fun _ => some 7) fun _ => true).run ws_lost = some w ∧ Cleaned 0 w := by
  constructor
  · refine ⟨_, rfl, ?_⟩
    refine ((a_session_is_cleaned_up_unless_a_frame_is_oversized 0 (fun _ => some 7)
      fun _ => true).1 tcp_lost _ rfl rfl ?_).mpr ?_
    · exact List.mem_of_getElem? (i := 1) rfl
    · refine ⟨by show (7 : UserId) ≠ 0; decide, fun hdr allowed he => ?_⟩
      simp only [tcp_lost, tcp_client, List.map_cons, List.map_nil, List.cons_append,
        List.nil_append, List.mem_cons, Label.resume.injEq, Session.Event.header.injEq,
        reduceCtorEq, or_false, List.not_mem_nil] at he
      obtain ⟨rfl, _⟩ := he
      exact fun hbig => absurd hbig.1 (by decide)
  · refine ⟨_, rfl, ?_⟩
    refine ((a_session_is_cleaned_up_unless_a_frame_is_oversized 0 (fun _ => some 7)
      fun _ => true).2 ws_lost _ rfl rfl ?_).mpr ?_
    · exact List.mem_of_getElem? (i := 1) rfl
    · show (7 : UserId) ≠ 0; decide

/-- A CHAT header that announces one byte too many ends the session as it stands. -/
theorem an_oversized_frame_skips_the_cleanup :
    ∃ w, (tcp 0 fun _ => some 7).run (tcp_client
      (.header { payload_len := 1048577, msg_type := MsgType.CHAT.byte } true)) = some w ∧
      w.run.await = .done ∧ Authenticated w ∧ w.run.user_id = 7 ∧
      w.registry.lookup w.alive 7 = some 0 ∧ ¬ Cleaned 0 w := by
  refine ⟨_, rfl, rfl, ?_, rfl, ?_, fun hc => ?_⟩
  · exact List.mem_of_getElem? (i := 1) rfl
  · rfl
  · exact Nat.zero_ne_one hc.decremented

end loomic.cleanup
