-- The gateway's connection to the chat server (ChatGatewayConnection): calls,
-- events of its sockets and timers in any order. The messages that it buffers,
-- the times and the emitted events are left out.
import Loomic.ChatProtocol
import Loomic.Json
import Loomic.Lib.Machine

open loomic.chat_protocol loomic.frame loomic.json machines

namespace loomic.chat_gateway

/-! ## The connection -/

namespace WireMessageType

def CHAT : UInt8 := 0x01
def AUTH : UInt8 := 0x02
def PING : UInt8 := 0x03
def PONG : UInt8 := 0x04
def ERROR : UInt8 := 0x05

end WireMessageType

inductive ChatConnectionState
  | idle
  | connecting
  | connected
  | reconnecting
  | error
  | disconnected
  deriving DecidableEq, Repr

structure Snapshot where
  state : ChatConnectionState := .idle
  detail : Option String := none
  reconnect_attempt : Nat := 0

/-- How far the listener of `secureConnect` has come with its `await this.writeBytes(..)`. -/
inductive AuthWrite
  | idle
  | written
  | thrown
  | answered
  deriving DecidableEq, Repr

/-- A socket, and what the promise of its `openSocket` knows of it. -/
structure Socket where
  destroyed : Bool := false
  secured : Bool := false
  closed : Bool := false
  auth : AuthWrite := .idle
  settled : Bool := false

/-- The fields of the object, and what it has done. Sockets are numbered in the order in which
they are opened. -/
structure State where
  access_token : String := ""
  connect_promise : Option Nat := none
  heartbeat_timer : Bool := false
  idle_timer : Bool := false
  reconnect_timer : Bool := false
  reconnect_attempt : Nat := 0
  socket : Option Nat := none
  stream_buffer : Bytes := []
  user_initiated_disconnect : Bool := false
  snapshot : Snapshot := {}
  listeners : Nat := 0
  /-- The calls of `sendMessage` that wait for the connection. -/
  sends : List (UInt64 × String) := []
  sockets : List Socket := []
  written : List (Nat × FrameParams) := []
  /-- After a `disconnect()`, until the next call from outside: the number of frames that had been
  written before it. -/
  signed_out : Option Nat := none

namespace State

/-- The socket is there and is not destroyed. -/
def live (s : State) (k : Nat) : Bool := (s.sockets[k]?).any fun socket => !socket.destroyed

/-- `this.socket && !this.socket.destroyed`. -/
def live_socket (s : State) : Option Nat := s.socket.filter s.live

def update (s : State) (k : Nat) (f : Socket → Socket) : State :=
  { s with sockets := s.sockets.modify k f }

def destroy (s : State) (k : Nat) : State :=
  s.update k fun socket => { socket with destroyed := true }

/-- `resolve` or `reject` of the promise of `openSocket`. -/
def settle (s : State) (k : Nat) : State := s.update k fun socket => { socket with settled := true }

def destroy_live (s : State) : State :=
  match s.live_socket with
  | none => s
  | some k => s.destroy k

def write_bytes (s : State) (k : Nat) (params : FrameParams) : State :=
  { s with written := s.written ++ [(k, params)] }

def set_status (s : State) (state : ChatConnectionState) (detail : Option String) : State :=
  { s with snapshot :=
    { state := state, detail := detail, reconnect_attempt := s.reconnect_attempt } }

def open_socket (s : State) : State :=
  { s with sockets := s.sockets ++ [{}], connect_promise := some s.sockets.length }

/-- `ensureConnected`, up to its first `await`. -/
def ensure_connected (s : State) (access_token : String) : State :=
  let s := { s with
    access_token := access_token
    user_initiated_disconnect := false
    idle_timer := false }
  if s.live_socket.isSome then s
  else if s.connect_promise.isSome then s
  else
    let next_state := if s.reconnect_attempt > 0 then .reconnecting else .connecting
    (s.set_status next_state (some "Opening the secure Loomic message tunnel.")).open_socket

def disconnect (s : State) : State :=
  let s := s.destroy_live
  { s with
    user_initiated_disconnect := true
    reconnect_timer := false
    heartbeat_timer := false
    idle_timer := false
    stream_buffer := []
    socket := none
    reconnect_attempt := 0
    signed_out := some s.written.length }.set_status .disconnected
      (some "Signed out of the messaging bridge.")

def schedule_reconnect (s : State) : State :=
  if s.user_initiated_disconnect = true ∨ s.reconnect_timer = true then s
  else
    let s := { s with reconnect_attempt := s.reconnect_attempt + 1, reconnect_timer := true }
    s.set_status .reconnecting (some "Connection dropped. Retrying automatically.")

def handle_frame (s : State) (frame : ParsedWireFrame) : State :=
  if frame.msg_type = WireMessageType.PONG then
    { s with snapshot := { s.snapshot with detail := some "Live over Loomic TLS messaging." } }
  else if frame.msg_type = WireMessageType.ERROR then
    (s.set_status .error (some ("The messaging server rejected the last operation. " ++
      "Check your token or slow down your send rate."))).destroy_live
  else s

def handle_incoming_bytes (s : State) (chunk : Bytes) : State :=
  let parsed := chat_protocol.handle_incoming_bytes s.stream_buffer chunk
  parsed.1.foldl handle_frame { s with stream_buffer := parsed.2 }

/-! ## The listeners of a socket -/

/-- `writeBytes` throws on a destroyed socket, and else calls `socket.write` at once. -/
def secure_connect (s : State) (k : Nat) : State :=
  let s' := { s with socket := some k, stream_buffer := [] }
  if s.live k then
    (s'.update k fun socket => { socket with secured := true, auth := .written }).write_bytes k
      { msg_type := WireMessageType.AUTH, payload := bytes s.access_token }
  else s'.update k fun socket => { socket with secured := true, auth := .thrown }

/-- The rest of that listener, after the `await`. -/
def auth_written (s : State) (k : Nat) (ok : Bool) : State :=
  let s := s.update k fun socket => { socket with auth := .answered }
  if ok then
    ({ s with reconnect_attempt := 0, heartbeat_timer := true }.set_status .connected
      (some "Live over Loomic TLS messaging.")).settle k
  else (s.destroy k).settle k

def error (s : State) (k : Nat) (message : String) : State :=
  { s with snapshot := { s.snapshot with detail := some message } }.settle k

def close (s : State) (k : Nat) : State :=
  let s := { s.update k fun socket => { socket with closed := true, destroyed := true } with
    heartbeat_timer := false
    socket := none }
  if s.user_initiated_disconnect then s
  else
    ({ s with snapshot :=
      { s.snapshot with detail := some "Connection dropped. Retrying automatically." } }
      ).schedule_reconnect.settle k

end State

/-! ## The machine -/

inductive Label
  | ensure_connected (access_token : String)
  | send_message (recipient_id : UInt64) (content : String)
  | disconnect
  | subscribe
  | unsubscribe
  /-- The promise of `openSocket` is settled, and `connectPromise = null` runs. -/
  | connect_ends
  /-- `sendMessage` goes on after `ensureConnected`. -/
  | send_goes_on (n : Nat)
  /-- A socket is destroyed without a call, because the connection failed or has ended. -/
  | breaks (k : Nat)
  | secure_connect (k : Nat)
  | auth_written (k : Nat) (ok : Bool)
  | data (k : Nat) (chunk : Bytes)
  | error (k : Nat) (message : String)
  | close (k : Nat)
  | heartbeat
  | reconnect
  | idle

def step (s : State) : Label → Option State
  | .ensure_connected access_token =>
    some { s.ensure_connected access_token with signed_out := none }
  | .send_message recipient_id content =>
    some { s.ensure_connected s.access_token with
      sends := s.sends ++ [(recipient_id, content)]
      signed_out := none }
  | .disconnect => some s.disconnect
  | .subscribe => some { s with idle_timer := false, listeners := s.listeners + 1 }
  | .unsubscribe =>
    if s.listeners = 0 then none
    else some { s with
      listeners := s.listeners - 1
      idle_timer := if s.listeners = 1 then true else s.idle_timer }
  | .connect_ends =>
    match s.connect_promise with
    | none => none
    | some k =>
      if (s.sockets[k]?).any (·.settled) then some { s with connect_promise := none } else none
  | .send_goes_on n =>
    match s.sends[n]? with
    | none => none
    | some (recipient_id, content) =>
      let s := { s with sends := s.sends.eraseIdx n }
      match s.live_socket with
      | none => some s
      | some k => some (s.write_bytes k
        { msg_type := WireMessageType.CHAT
          payload := bytes content
          recipient_id := recipient_id })
  | .breaks k => some (s.destroy k)
  | .secure_connect k =>
    if (s.sockets[k]?).any (fun socket => !socket.secured && !socket.closed) then
      some (s.secure_connect k)
    else none
  | .auth_written k ok =>
    match s.sockets[k]? with
    | some { auth := .written, .. } => some (s.auth_written k ok)
    | some { auth := .thrown, .. } => if ok then none else some (s.auth_written k false)
    | _ => none
  | .data k chunk => if k < s.sockets.length then some (s.handle_incoming_bytes chunk) else none
  | .error k message => if k < s.sockets.length then some (s.error k message) else none
  | .close k => if (s.sockets[k]?).any (!·.closed) then some (s.close k) else none
  | .heartbeat =>
    if s.heartbeat_timer then
      match s.live_socket with
      | none => some s
      | some k => some (s.write_bytes k { msg_type := WireMessageType.PING })
    else none
  | .reconnect =>
    if s.reconnect_timer then
      if s.access_token = "" ∨ s.user_initiated_disconnect = true then
        some { s with reconnect_timer := false }
      else some ({ s with reconnect_timer := false }.ensure_connected s.access_token)
    else none
  | .idle =>
    if s.idle_timer then
      let s := { s with idle_timer := false }
      if s.listeners > 0 then some s else some s.disconnect
    else none

/-- Any calls and events, one after the other. -/
def gateway : Machine State Label where
  start := {}
  step := step

/-- While it is signed out, no AUTH frame has been written since, the state is not `connected`
and `this.socket` is not live. -/
def SignedOut (s : State) : Prop :=
  ∀ n ∈ s.signed_out, (∀ w ∈ s.written.drop n, w.2.msg_type ≠ WireMessageType.AUTH) ∧
    s.snapshot.state ≠ .connected ∧ s.live_socket = none

instance (s : State) : Decidable (SignedOut s) := by unfold SignedOut; infer_instance

/-- While it is signed out, no handshake of a live socket ends, and no written AUTH frame is
acknowledged. -/
def NothingPending (s : State) : Label → Prop
  | .secure_connect k => s.signed_out = none ∨ s.live k = false
  | .auth_written _ ok => s.signed_out = none ∨ ok = false
  | _ => True

instance (s : State) : ∀ a, Decidable (NothingPending s a)
  | .secure_connect _ => inferInstanceAs (Decidable (_ ∨ _))
  | .auth_written _ _ => inferInstanceAs (Decidable (_ ∨ _))
  | .ensure_connected _ | .send_message _ _ | .disconnect | .subscribe | .unsubscribe
  | .connect_ends | .send_goes_on _ | .breaks _ | .data _ _ | .error _ _ | .close _
  | .heartbeat | .reconnect | .idle => isTrue trivial

/-! ## What the other steps leave alone -/

/-- Nothing that a signed-out connection must not do. -/
structure Quiet (s s' : State) : Prop where
  signed_out : s'.signed_out = s.signed_out
  user : s'.user_initiated_disconnect = s.user_initiated_disconnect
  written : ∃ ws, s'.written = s.written ++ ws ∧ ∀ w ∈ ws, w.2.msg_type ≠ WireMessageType.AUTH
  state : s'.snapshot.state = .connected → s.snapshot.state = .connected
  live : s.live_socket = none → s'.live_socket = none

section Quiet

variable {s s' s'' : State} {k : Nat}

theorem Quiet.refl (s : State) : Quiet s s :=
  ⟨rfl, rfl, ⟨[], (List.append_nil _).symm, fun _ hw => absurd hw List.not_mem_nil⟩, id, id⟩

theorem Quiet.trans (h : Quiet s s') (h' : Quiet s' s'') : Quiet s s'' := by
  obtain ⟨ws, hws, hno⟩ := h.written
  obtain ⟨ws', hws', hno'⟩ := h'.written
  refine ⟨h'.signed_out.trans h.signed_out, h'.user.trans h.user, ⟨ws ++ ws', ?_, ?_⟩,
    fun hc => h.state (h'.state hc), fun hl => h'.live (h.live hl)⟩
  · rw [hws', hws, List.append_assoc]
  · intro w hw
    rcases List.mem_append.mp hw with hw | hw
    · exact hno w hw
    · exact hno' w hw

/-- A change of the other fields. -/
theorem quiet_of_eq (hsigned : s'.signed_out = s.signed_out)
    (huser : s'.user_initiated_disconnect = s.user_initiated_disconnect)
    (hwritten : s'.written = s.written)
    (hstate : s'.snapshot.state = .connected → s.snapshot.state = .connected)
    (hsocket : s'.socket = s.socket) (hsockets : s'.sockets = s.sockets) : Quiet s s' := by
  refine ⟨hsigned, huser, ⟨[], ?_, fun _ hw => absurd hw List.not_mem_nil⟩, hstate, fun hl => ?_⟩
  · rw [hwritten, List.append_nil]
  · unfold State.live_socket State.live at hl ⊢
    rw [hsocket, hsockets]
    exact hl

theorem live_socket_eq_none :
    s.live_socket = none ↔ ∀ k, s.socket = some k → s.live k = false := by
  unfold State.live_socket
  cases s.socket with
  | none => simp
  | some k => simp [Option.filter]

/-- A socket that is destroyed stays so. -/
theorem live_update {f : Socket → Socket} (hf : ∀ socket, socket.destroyed = true →
    (f socket).destroyed = true) {j : Nat} (h : s.live j = false) :
    (s.update k f).live j = false := by
  unfold State.live State.update at *
  dsimp only
  rw [List.getElem?_modify]
  cases hj : s.sockets[j]? with
  | none => simp
  | some socket =>
    have hdestroyed : socket.destroyed = true := by simpa [hj] using h
    by_cases hkj : k = j
    · simp [hkj, hf socket hdestroyed]
    · simp [hkj, hdestroyed]

theorem quiet_update {f : Socket → Socket} (hf : ∀ socket, socket.destroyed = true →
    (f socket).destroyed = true) : Quiet s (s.update k f) := by
  refine ⟨rfl, rfl, ⟨[], (List.append_nil _).symm, fun _ hw => absurd hw List.not_mem_nil⟩, id, ?_⟩
  intro hl
  rw [live_socket_eq_none] at hl ⊢
  exact fun j hj => live_update hf (hl j hj)

theorem quiet_destroy : Quiet s (s.destroy k) := quiet_update fun _ _ => rfl

theorem quiet_settle : Quiet s (s.settle k) := quiet_update fun _ h => h

theorem quiet_destroy_live : Quiet s s.destroy_live := by
  unfold State.destroy_live
  split
  · exact Quiet.refl s
  · exact quiet_destroy

theorem quiet_write_bytes {params : FrameParams} (h : params.msg_type ≠ WireMessageType.AUTH) :
    Quiet s (s.write_bytes k params) := by
  refine ⟨rfl, rfl, ⟨[(k, params)], rfl, ?_⟩, id, id⟩
  intro w hw
  obtain rfl := List.mem_singleton.mp hw
  exact h

theorem quiet_handle_frame (frame : ParsedWireFrame) : Quiet s (s.handle_frame frame) := by
  unfold State.handle_frame
  split
  · exact quiet_of_eq rfl rfl rfl id rfl rfl
  · split
    · apply Quiet.trans _ quiet_destroy_live
      exact quiet_of_eq rfl rfl rfl (fun hc => nomatch hc) rfl rfl
    · exact Quiet.refl s

theorem quiet_handle_incoming_bytes (chunk : Bytes) : Quiet s (s.handle_incoming_bytes chunk) := by
  have hframes : ∀ (frames : List ParsedWireFrame) (t : State),
      Quiet t (frames.foldl State.handle_frame t) := by
    intro frames
    induction frames with
    | nil => exact Quiet.refl
    | cons frame frames ih => exact fun t => (quiet_handle_frame frame).trans (ih _)
  apply Quiet.trans _ (hframes _ _)
  exact quiet_of_eq rfl rfl rfl id rfl rfl

theorem quiet_error (message : String) : Quiet s (s.error k message) := by
  apply Quiet.trans _ quiet_settle
  exact quiet_of_eq rfl rfl rfl id rfl rfl

/-- After a `disconnect()` a socket that closes is not opened again. -/
theorem quiet_close (huser : s.user_initiated_disconnect = true) : Quiet s (s.close k) := by
  unfold State.close
  dsimp only
  rw [if_pos (by exact huser)]
  exact ⟨rfl, rfl, ⟨[], (List.append_nil _).symm, fun _ hw => absurd hw List.not_mem_nil⟩, id,
    fun _ => rfl⟩

/-- A socket that is destroyed gets no AUTH frame. -/
theorem quiet_secure_connect (hdead : s.live k = false) : Quiet s (s.secure_connect k) := by
  unfold State.secure_connect
  dsimp only
  rw [if_neg (by rw [hdead]; decide)]
  refine ⟨rfl, rfl, ⟨[], (List.append_nil _).symm, fun _ hw => absurd hw List.not_mem_nil⟩, id,
    fun _ => ?_⟩
  rw [live_socket_eq_none]
  intro j hj
  obtain rfl := Option.some.inj hj
  apply live_update
  · exact fun _ h => h
  · exact hdead

theorem written_secure_connect (hlive : s.live k = true) :
    ∃ params : FrameParams, params.msg_type = WireMessageType.AUTH ∧
      (s.secure_connect k).written = s.written ++ [(k, params)] := by
  unfold State.secure_connect
  dsimp only
  rw [if_pos hlive]
  exact ⟨_, rfl, rfl⟩

theorem quiet_auth_failed : Quiet s (s.auth_written k false) := by
  apply Quiet.trans _ quiet_settle
  apply Quiet.trans _ quiet_destroy
  apply quiet_update
  exact fun _ h => h

end Quiet

/-! ## The law -/

/-- Whoever is signed out has signed out himself. -/
structure Kept (s : State) : Prop where
  signed_out : SignedOut s
  user : s.signed_out ≠ none → s.user_initiated_disconnect = true
  written : ∀ n ∈ s.signed_out, n ≤ s.written.length

section Steps

variable {s s' : State}

theorem kept_of_none (h : s.signed_out = none) : Kept s := by
  have hno : ∀ n, n ∉ s.signed_out := by
    intro n hn
    rw [h] at hn
    cases hn
  exact ⟨fun n hn => absurd hn (hno n), fun hne => absurd h hne, fun n hn => absurd hn (hno n)⟩

theorem kept_disconnect : Kept s.disconnect := by
  refine ⟨fun n hn => ?_, fun _ => rfl, fun n hn => ?_⟩
  · obtain rfl : s.destroy_live.written.length = n := Option.some.inj hn
    refine ⟨fun w hw => ?_, ChatConnectionState.noConfusion, rfl⟩
    have hnil : s.disconnect.written.drop s.destroy_live.written.length = [] := List.drop_length
    rw [hnil] at hw
    cases hw
  · obtain rfl : s.destroy_live.written.length = n := Option.some.inj hn
    exact Nat.le_refl _

theorem kept_of_quiet (h : Kept s) (hq : Quiet s s') : Kept s' := by
  obtain ⟨ws, hws, hno⟩ := hq.written
  refine ⟨fun n hn => ?_, fun hne => ?_, fun n hn => ?_⟩
  · rw [hq.signed_out] at hn
    obtain ⟨hauth, hstate, hlive⟩ := h.signed_out n hn
    refine ⟨fun w hw => ?_, fun hc => hstate (hq.state hc), hq.live hlive⟩
    rw [hws, List.drop_append_of_le_length (h.written n hn)] at hw
    rcases List.mem_append.mp hw with hw | hw
    · exact hauth w hw
    · exact hno w hw
  · rw [hq.signed_out] at hne
    exact hq.user.trans (h.user hne)
  · rw [hq.signed_out] at hn
    rw [hws, List.length_append]
    exact Nat.le_add_right_of_le (h.written n hn)

/-- What a step of a connection that is signed out may be. -/
def Allowed (s : State) (a : Label) (s' : State) : Prop :=
  s'.signed_out = s.signed_out ∧ (s.signed_out ≠ none → s.user_initiated_disconnect = true →
    NothingPending s a → Quiet s s')

theorem allowed_of_quiet {a : Label} (h : Quiet s s') : Allowed s a s' :=
  ⟨h.signed_out, fun _ _ _ => h⟩

theorem signed_out_ensure_connected (access_token : String) :
    (s.ensure_connected access_token).signed_out = s.signed_out := by
  unfold State.ensure_connected
  dsimp only
  split
  · rfl
  · split <;> rfl

theorem allowed_secure_connect {k : Nat} : Allowed s (.secure_connect k) (s.secure_connect k) := by
  refine ⟨?_, fun hsigned _ hok => quiet_secure_connect (hok.resolve_left hsigned)⟩
  unfold State.secure_connect
  dsimp only
  split <;> rfl

theorem allowed_auth_written {k : Nat} {ok : Bool} :
    Allowed s (.auth_written k ok) (s.auth_written k ok) := by
  refine ⟨by cases ok <;> rfl, fun hsigned _ hok => ?_⟩
  obtain rfl := hok.resolve_left hsigned
  exact quiet_auth_failed

theorem allowed_close {k : Nat} : Allowed s (.close k) (s.close k) := by
  refine ⟨?_, fun _ huser _ => quiet_close huser⟩
  unfold State.close State.schedule_reconnect
  dsimp only
  split
  · rfl
  · unfold State.settle State.update
    dsimp only
    split <;> rfl

/-- A call from outside, a `disconnect()`, or a step that is allowed. -/
theorem step_cases {a : Label} (h : step s a = some s') :
    s'.signed_out = none ∨ (∃ t, s' = State.disconnect t) ∨ Allowed s a s' := by
  cases a with
  | ensure_connected access_token =>
    obtain rfl := Option.some.inj h
    exact .inl rfl
  | send_message recipient_id content =>
    obtain rfl := Option.some.inj h
    exact .inl rfl
  | disconnect =>
    obtain rfl := Option.some.inj h
    exact .inr (.inl ⟨s, rfl⟩)
  | subscribe =>
    obtain rfl := Option.some.inj h
    exact .inr (.inr (allowed_of_quiet (quiet_of_eq rfl rfl rfl id rfl rfl)))
  | unsubscribe =>
    obtain ⟨_, hs⟩ := Option.ite_none_left_eq_some.mp h
    obtain rfl := Option.some.inj hs
    exact .inr (.inr (allowed_of_quiet (quiet_of_eq rfl rfl rfl id rfl rfl)))
  | connect_ends =>
    unfold step at h
    dsimp only at h
    split at h
    · cases h
    · split at h
      · obtain rfl := Option.some.inj h
        exact .inr (.inr (allowed_of_quiet (quiet_of_eq rfl rfl rfl id rfl rfl)))
      · cases h
  | send_goes_on n =>
    unfold step at h
    dsimp only at h
    right; right
    apply allowed_of_quiet
    split at h
    · cases h
    · split at h <;> obtain rfl := Option.some.inj h
      · exact quiet_of_eq rfl rfl rfl id rfl rfl
      · have hchat : WireMessageType.CHAT ≠ WireMessageType.AUTH := by decide
        apply Quiet.trans _ (quiet_write_bytes hchat)
        exact quiet_of_eq rfl rfl rfl id rfl rfl
  | breaks k =>
    obtain rfl := Option.some.inj h
    exact .inr (.inr (allowed_of_quiet quiet_destroy))
  | secure_connect k =>
    obtain ⟨_, hs⟩ := Option.ite_none_right_eq_some.mp h
    obtain rfl := Option.some.inj hs
    exact .inr (.inr allowed_secure_connect)
  | auth_written k ok =>
    unfold step at h
    dsimp only at h
    right; right
    split at h
    · obtain rfl := Option.some.inj h
      exact allowed_auth_written
    · split at h
      · cases h
      · rename_i hok
        obtain rfl := Option.some.inj h
        exact allowed_of_quiet quiet_auth_failed
    · cases h
  | data k chunk =>
    obtain ⟨_, hs⟩ := Option.ite_none_right_eq_some.mp h
    obtain rfl := Option.some.inj hs
    exact .inr (.inr (allowed_of_quiet (quiet_handle_incoming_bytes chunk)))
  | error k message =>
    obtain ⟨_, hs⟩ := Option.ite_none_right_eq_some.mp h
    obtain rfl := Option.some.inj hs
    exact .inr (.inr (allowed_of_quiet (quiet_error message)))
  | close k =>
    obtain ⟨_, hs⟩ := Option.ite_none_right_eq_some.mp h
    obtain rfl := Option.some.inj hs
    exact .inr (.inr allowed_close)
  | heartbeat =>
    obtain ⟨_, hs⟩ := Option.ite_none_right_eq_some.mp h
    right; right
    apply allowed_of_quiet
    split at hs <;> obtain rfl := Option.some.inj hs
    · exact Quiet.refl s
    · exact quiet_write_bytes (by decide)
  | reconnect =>
    obtain ⟨_, hs⟩ := Option.ite_none_right_eq_some.mp h
    right; right
    split at hs <;> obtain rfl := Option.some.inj hs
    · exact allowed_of_quiet (quiet_of_eq rfl rfl rfl id rfl rfl)
    · rename_i hgo
      exact ⟨signed_out_ensure_connected _, fun _ huser _ => absurd (.inr huser) hgo⟩
  | idle =>
    obtain ⟨_, hs⟩ := Option.ite_none_right_eq_some.mp h
    right
    dsimp only at hs
    split at hs <;> obtain rfl := Option.some.inj hs
    · exact .inr (allowed_of_quiet (quiet_of_eq rfl rfl rfl id rfl rfl))
    · exact .inl ⟨_, rfl⟩

theorem kept_step {a : Label} (hkept : Kept s) (hok : NothingPending s a)
    (h : step s a = some s') : Kept s' := by
  rcases step_cases h with hnone | ⟨t, rfl⟩ | ⟨hsame, hquiet⟩
  · exact kept_of_none hnone
  · exact kept_disconnect
  · by_cases hsigned : s.signed_out = none
    · exact kept_of_none (hsame.trans hsigned)
    · exact kept_of_quiet hkept (hquiet hsigned (hkept.user hsigned) hok)

/-- The two steps that are excluded break the law at once. -/
theorem nothing_pending_of_step {a : Label} (hkept : Kept s) (h : step s a = some s')
    (hafter : SignedOut s') : NothingPending s a := by
  cases a with
  | secure_connect k =>
    by_contra hpending
    obtain ⟨hsigned, hlive⟩ := not_or.mp hpending
    have hlive : s.live k = true := by simpa using hlive
    obtain ⟨n, hn⟩ := Option.ne_none_iff_exists'.mp hsigned
    unfold step at h
    dsimp only at h
    split at h
    · obtain rfl := Option.some.inj h
      -- The AUTH frame is the last one that was written, and it was written after the call.
      obtain ⟨params, hauth, hwritten⟩ := written_secure_connect hlive
      have hsame : (s.secure_connect k).signed_out = some n :=
        allowed_secure_connect.1.trans hn
      refine (hafter n hsame).1 (k, params) ?_ hauth
      rw [hwritten, List.drop_append_of_le_length (hkept.written n hn)]
      exact List.mem_append_right _ (List.mem_singleton.mpr rfl)
    · cases h
  | auth_written k ok =>
    by_contra hpending
    obtain ⟨hsigned, hok⟩ := not_or.mp hpending
    obtain ⟨n, hn⟩ := Option.ne_none_iff_exists'.mp hsigned
    have hok : ok = true := by simpa using hok
    subst hok
    unfold step at h
    dsimp only at h
    split at h
    · obtain rfl := Option.some.inj h
      exact (hafter n hn).2.1 rfl
    · cases h
    · cases h
  | _ => trivial

end Steps

/-- A connection that is signed out stays so in all states of a run exactly when each step of the
run finds nothing pending. -/
theorem signing_out_is_final_iff_nothing_is_pending {as : List Label} {s : State}
    (hr : gateway.run as = some s) :
    (∀ bs t, bs <+: as → gateway.run bs = some t → SignedOut t) ↔
      gateway.Meets NothingPending as :=
  Machine.always_iff_meets (kept_of_none rfl) (fun _ _ _ h hok hs => kept_step h hok hs)
    (fun _ h => h.signed_out) (fun _ _ _ h hs hafter => nothing_pending_of_step h hs hafter) hr

/-! ## Two sessions -/

/-- A session that is opened, authenticated and ended. -/
def short_session : List Label :=
  [.ensure_connected "token", .secure_connect 0, .auth_written 0 true, .connect_ends, .disconnect,
    .close 0]

theorem a_short_session_stays_signed_out :
    ∃ s, gateway.run short_session = some s ∧
      ∀ bs t, bs <+: short_session → gateway.run bs = some t → SignedOut t :=
  ⟨_, rfl, (signing_out_is_final_iff_nothing_is_pending rfl).mpr (by decide)⟩

/-- The handshake of a socket that `disconnect()` does not see. -/
def late_handshake : List Label := [.ensure_connected "token", .disconnect, .secure_connect 0]

theorem a_late_handshake_signs_in :
    ∃ s, gateway.run late_handshake = some s ∧ ¬ SignedOut s := ⟨_, rfl, by decide⟩

end loomic.chat_gateway
