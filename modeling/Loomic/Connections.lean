-- The connections of the server: those that `TcpServer::listen` accepts and
-- those that the HTTP server upgrades, with what their `run()` coroutines do to
-- the gauge of open connections, to the registry, and to the presence keys.
import Loomic.Cleanup
import Loomic.Server

open loomic.cleanup loomic.frame loomic.json loomic.server loomic.session_registry
open loomic.session_run machines store_forward

namespace loomic.connections

/-! ## The presence keys -/

/-- `SETEX` and `EXPIRE` give a key a minute. -/
def ttl : Nat := 60000

/-- When the key of each user expires, in milliseconds. When it was last given its minute is
history. -/
structure Presence where
  expires : UserId → Option Nat
  renewed : UserId → Nat

namespace Presence

def empty : Presence := { expires := fun _ => none, renewed := fun _ => 0 }

/-- `RedisClient::get_presence` finds the key. -/
def online (p : Presence) (now : Nat) (user_id : UserId) : Bool := (p.expires user_id).any (now < ·)

def set_presence (p : Presence) (now : Nat) (user_id : UserId) : Presence where
  expires := Function.update p.expires user_id (some (now + ttl))
  renewed := Function.update p.renewed user_id now

/-- `EXPIRE` does nothing to a key that does not exist. -/
def refresh_presence (p : Presence) (now : Nat) (user_id : UserId) : Presence :=
  if p.online now user_id then p.set_presence now user_id else p

def del_presence (p : Presence) (user_id : UserId) : Presence :=
  { p with expires := Function.update p.expires user_id none }

end Presence

/-! ## The connections -/

/-- A TCP connection begins with a TLS handshake. -/
inductive Stage
  | handshake
  | refused
  | running (run : AnyRun)

/-- What the connection added to the gauge is history. -/
structure Connection where
  stage : Stage
  alive : Bool
  net : Int

structure Connections where
  conns : List Connection
  active_connections : Int
  registry : SessionRegistry Nat
  presence : Presence
  now : Nat

inductive Label
  | accept
  | handshake (i : Nat) (ok : Bool)
  | upgrade
  | resume (i : Nat) (ev : AnyEvent)
  | destroy (i : Nat)
  | tick (ms : Nat)

/-- What a segment adds to `active_connections`. -/
def net : List (Effect Stored) → Int
  | [] => 0
  | .active_connections_increment :: es => net es + 1
  | .active_connections_decrement :: es => net es - 1
  | _ :: es => net es

/-- What an effect does to the registry. -/
def register (alive : Nat → Bool) (i : Nat) (reg : SessionRegistry Nat) :
    Effect Stored → SessionRegistry Nat
  | .registry_insert user_id => reg.insert user_id i
  | .registry_remove user_id => reg.remove alive user_id (some i)
  | _ => reg

/-- The command to Redis whose reply a session waits for. It is sent when the coroutine is
resumed with the reply. -/
def command (now : Nat) (run : AnyRun) (p : Presence) : Presence :=
  match run with
  | .tcp r => match r.await with
    | .set_presence => p.set_presence now r.user_id
    | .refresh_presence => p.refresh_presence now r.user_id
    | .del_presence => p.del_presence r.user_id
    | _ => p
  | .ws r => match r.await with
    | .set_presence => p.set_presence now r.user_id
    | .del_presence => p.del_presence r.user_id
    | _ => p

def is_reply : AnyEvent → Bool
  | .tcp (.replied _) | .ws (.replied _) => true
  | _ => false

/-- The session waits for the reply to the `SETEX` of its registration. -/
def registering : AnyRun → Bool
  | .tcp r => r.await = .set_presence
  | .ws r => r.await = .set_presence

namespace Connections

variable (w : Connections)

def alive (i : Nat) : Bool := (w.conns[i]?).any Connection.alive

def lookup (user_id : UserId) : Option Nat := w.registry.lookup w.alive user_id

/-- The `run()` of a session. -/
def run (i : Nat) : Option AnyRun :=
  match w.conns[i]? with
  | some { stage := .running run, .. } => some run
  | _ => none

def online (user_id : UserId) : Bool := w.presence.online w.now user_id

def open_connection (stage : Stage) (net : Int) : Connections :=
  { w with
    conns := w.conns ++ [{ stage, alive := true, net }]
    active_connections := w.active_connections + net }

def begin_session (i : Nat) : Connections :=
  { w with conns := w.conns.modify i fun c => { c with stage := .running (.start .tcp) } }

def refuse (i : Nat) : Connections :=
  { w with
    conns := w.conns.modify i fun c => { c with stage := .refused, net := c.net - 1 }
    active_connections := w.active_connections - 1 }

/-- The handshake succeeds, and a session is made, or it fails. -/
def handshake (i : Nat) (ok : Bool) : Option Connections :=
  match w.conns[i]? with
  | some { stage := .handshake, .. } =>
    some (if ok then w.begin_session i else w.refuse i)
  | _ => none

/-- What the resumption of a session with `ev` does to the connections, when it ends in `run'`
and with the effects `es`. -/
def turn (i : Nat) (run : AnyRun) (ev : AnyEvent) (run' : AnyRun) (es : List (Effect Stored)) :
    Connections where
  conns := w.conns.modify i fun c => { c with stage := .running run', net := c.net + net es }
  active_connections := w.active_connections + net es
  registry := es.foldl (register w.alive i) w.registry
  presence := if is_reply ev then command w.now run w.presence else w.presence
  now := w.now

def resume (verify : Bytes → Option UserId) (i : Nat) (ev : AnyEvent) : Option Connections :=
  (w.run i).bind fun run => (run.resume verify ev).map fun (run', es) => w.turn i run ev run' es

def free (i : Nat) : Connections :=
  { w with conns := w.conns.modify i fun c => { c with alive := false } }

/-- A session is destroyed at some time after its `run()` has returned. -/
def destroy (i : Nat) : Option Connections :=
  (w.run i).bind fun run =>
    if run.active then none else some (w.free i)

end Connections

/-- The connections in the order in which they are opened. -/
def listeners (verify : Bytes → Option UserId) : Machine Connections Label where
  start :=
    { conns := [], active_connections := 0, registry := .empty, presence := .empty, now := 0 }
  step w
    | .accept => some (w.open_connection .handshake 1)
    | .handshake i ok => w.handshake i ok
    | .upgrade => some (w.open_connection (.running (.start .ws)) 0)
    | .resume i ev => w.resume verify i ev
    | .destroy i => w.destroy i
    | .tick ms => some { w with now := w.now + ms }

/-! ## What a segment of `run()` can do -/

def phase : AnyRun → Phase
  | .tcp r => tcp_phase r.await
  | .ws r => ws_phase r.await

def is_tcp : AnyRun → Bool
  | .tcp _ => true
  | .ws _ => false

theorem phase_start (transport : Transport) : phase (.start transport) = .auth := by
  cases transport <;> rfl

/-- On these a TCP connection ends before its authentication. -/
def Refuses : AnyEvent → Prop
  | .tcp (.header hdr _) => hdr.type ≠ .AUTH ∨ Session.kMaxAuthPayload < hdr.payload_len
  | .tcp .written | .tcp .raised => True
  | _ => False

/-- On these a session that is let in leaves its `try` block. -/
def Leaves : AnyEvent → Prop
  | .tcp (.header hdr _) => Session.Oversized hdr
  | .ws (.frames batch) => ∃ e ∈ batch, ∃ item ∈ e.message?, ¬ WebSocketSession.dumps item.message
  | .ws (.text (some j)) => j.value_string "type" = none
  | .tcp .raised | .ws .raised => True
  | _ => False

def Oversized : AnyEvent → Prop
  | .tcp (.header hdr _) => Session.Oversized hdr
  | _ => False

instance decidable_refuses (ev : AnyEvent) : Decidable (Refuses ev) := by
  unfold Refuses
  split <;> infer_instance

instance decidable_leaves (ev : AnyEvent) : Decidable (Leaves ev) := by
  unfold Leaves Session.Oversized
  split <;> infer_instance

instance decidable_oversized (ev : AnyEvent) : Decidable (Oversized ev) := by
  unfold Oversized Session.Oversized
  split <;> infer_instance

/-- An effect that leaves the registry alone. -/
def Unregistered : Effect Stored → Prop
  | .registry_insert _ | .registry_remove _ => False
  | _ => True

/-- An effect that leaves the registry and the gauge alone. -/
def Neutral : Effect Stored → Prop
  | .registry_insert _ | .registry_remove _ => False
  | .active_connections_increment | .active_connections_decrement => False
  | _ => True

/-- What a segment can do, by the phases before and after it. -/
inductive Turn (r : AnyRun) (ev : AnyEvent) : AnyRun → List (Effect Stored) → Prop
  | wait {r' es} (h : phase r = .auth) (h' : phase r' = .auth) (hk : is_tcp r' = is_tcp r)
      (hu : r'.user_id = r.user_id) (hev : is_tcp r → ¬ Refuses ev) (hes : ∀ e ∈ es, Neutral e) :
      Turn r ev r' es
  | refuse {r' es} (h : phase r = .auth) (h' : phase r' = .done) (hk : is_tcp r' = is_tcp r)
      (hev : is_tcp r → Refuses ev) (hes : ∀ e ∈ es, Neutral e) : Turn r ev r' es
  | enter {r' es} (h : phase r = .auth) (h' : phase r' = .live) (hk : is_tcp r' = is_tcp r)
      (hreg : registering r') (hev : is_tcp r → ¬ Refuses ev)
      (hnet : net es = if is_tcp r then 0 else 1) (hes : ∀ e ∈ es, Unregistered e) :
      Turn r ev r' (.registry_insert r'.user_id :: es)
  | stay {r' es} (h : phase r = .live) (h' : phase r' = .live) (hk : is_tcp r' = is_tcp r)
      (hu : r'.user_id = r.user_id) (hreg : registering r' = false) (hev : ¬ Leaves ev)
      (hes : ∀ e ∈ es, Neutral e) : Turn r ev r' es
  | leave {r' es} (h : phase r = .live) (h' : phase r' = .del_presence)
      (hk : is_tcp r' = is_tcp r) (hu : r'.user_id = r.user_id) (h0 : r.user_id ≠ 0)
      (hev : Leaves ev) (hbig : ¬ Oversized ev) (hes : ∀ e ∈ es, Neutral e) :
      Turn r ev r' (es ++ farewell r.user_id)
  | vanish {r' es} (h : phase r = .live) (h' : phase r' = .done) (hk : is_tcp r' = is_tcp r)
      (hu : r'.user_id = r.user_id) (hev : Leaves ev) (hwhy : r.user_id = 0 ∨ Oversized ev)
      (hes : ∀ e ∈ es, Neutral e) : Turn r ev r' es
  | finish {r' es} (h : phase r = .del_presence ∨ phase r = .set_last_seen)
      (h' : phase r' = .set_last_seen ∨ phase r' = .done) (hk : is_tcp r' = is_tcp r)
      (hu : r'.user_id = r.user_id) (hes : ∀ e ∈ es, Neutral e) : Turn r ev r' es

section Tcp

variable {r : Run Session.Await} {ev : Session.Event Stored}

/-- A resumption of `Session::run`. -/
abbrev TcpTurn (r : Run Session.Await) (ev : Session.Event Stored)
    (seg : Segment Stored Session.Await) : Prop := Turn (.tcp r) (.tcp ev) (.tcp seg.1) seg.2

theorem tcp_turn_read_header {es : List (Effect Stored)} (h : tcp_phase r.await = .live)
    (hev : ¬ Leaves (.tcp ev)) (hes : ∀ e ∈ es, Neutral e) :
    TcpTurn r ev (Session.read_header r es) := by
  refine .stay h rfl rfl rfl rfl hev ?_
  intro e he
  rcases List.mem_append.mp he with he | he
  · exact hes e he
  · rw [List.mem_singleton.mp he]; trivial

theorem tcp_turn_raise (h : tcp_phase r.await = .live) : TcpTurn r .raised (Session.raise r) := by
  unfold Session.raise Run.cleanup
  split
  · rename_i h0
    exact .vanish h rfl rfl rfl trivial (.inl h0) (by simp [Run.to, Neutral])
  · rename_i h0
    have hes : ∀ e ∈ ([] : List (Effect Stored)), Neutral e := List.forall_mem_nil _
    change TcpTurn r .raised (_, [] ++ _)
    exact .leave h rfl rfl rfl h0 trivial id hes

theorem tcp_turn_authenticate {verify : Bytes → Option UserId} {token : Bytes}
    (h : tcp_phase r.await = .auth) (hev : ¬ Refuses (.tcp ev)) :
    TcpTurn r ev (Session.authenticate r verify token) := by
  unfold Session.authenticate
  split
  · exact .wait h rfl rfl rfl (fun _ => hev) (by simp [Run.to, Neutral])
  · exact .enter h rfl rfl rfl (fun _ => hev) rfl (by simp [Unregistered])

theorem tcp_turn_chat {hdr : FrameHeader} {payload : Bytes} {allowed : Bool}
    (h : tcp_phase r.await = .live) (hev : ¬ Leaves (.tcp ev)) :
    TcpTurn r ev (Session.chat r hdr payload allowed) := by
  unfold Session.chat
  split <;> exact .stay h rfl rfl rfl rfl hev (by simp [Run.to, Neutral])

theorem tcp_turn_typing_fan_out {hdr : FrameHeader} {members : List UserId}
    (h : tcp_phase r.await = .live) (hev : ¬ Leaves (.tcp ev)) :
    TcpTurn r ev (Session.typing_fan_out r hdr members) := by
  apply tcp_turn_read_header h hev
  intro e he
  obtain ⟨member_id, _, rfl⟩ := List.mem_map.mp he
  trivial

theorem tcp_turn_dispatch {hdr : FrameHeader} {allowed : Bool} (h : tcp_phase r.await = .live) :
    TcpTurn r (.header hdr allowed) (Session.dispatch r hdr allowed) := by
  have hsmall : ¬ (hdr.type = .CHAT ∧ Session.kMaxPayload < hdr.payload_len) →
      ¬ Leaves (.tcp (.header hdr allowed)) := id
  unfold Session.dispatch
  split_ifs with hping hchat hbig hempty htyping hgroup hskip
  · have hno : ¬ Leaves (.tcp (.header hdr allowed)) := hsmall fun hb => by
      rw [hping] at hb; exact absurd hb.1 (by decide)
    exact .stay h rfl rfl rfl rfl hno (by simp [Run.to, Neutral])
  · exact .vanish h rfl rfl rfl ⟨hchat, hbig⟩ (.inr ⟨hchat, hbig⟩)
      (by simp [Session.co_return, Run.to])
  · exact tcp_turn_chat h (hsmall fun hb => hbig hb.2)
  · exact .stay h rfl rfl rfl rfl (hsmall fun hb => hbig hb.2) (by simp [Run.to, Neutral])
  · exact .stay h rfl rfl rfl rfl (hsmall fun hb => hchat hb.1) (by simp [Run.to, Neutral])
  · exact tcp_turn_read_header h (hsmall fun hb => hchat hb.1) (by simp [Neutral])
  · exact .stay h rfl rfl rfl rfl (hsmall fun hb => hchat hb.1) (by simp [Run.to, Neutral])
  · exact tcp_turn_read_header h (hsmall fun hb => hchat hb.1) (by simp)

theorem tcp_turn {verify : Bytes → Option UserId} {seg : Segment Stored Session.Await}
    (h : Session.resume r verify ev = some seg) (h0 : tcp_phase r.await = .auth → r.user_id = 0) :
    TcpTurn r ev seg := by
  unfold Session.resume at h
  split at h <;> rename_i hawait
  -- the authentication
  · have hauth : tcp_phase r.await = .auth := by rw [hawait]; rfl
    split_ifs at h with hbad hempty <;> cases h
    · exact .refuse hauth rfl rfl (fun _ => hbad) (by simp [Session.co_return, Run.to])
    · exact tcp_turn_authenticate hauth hbad
    · exact .wait hauth rfl rfl rfl (fun _ => hbad) (by simp [Run.to, Neutral])
  · have hauth : tcp_phase r.await = .auth := by rw [hawait]; rfl
    split_ifs at h
    cases h
    exact tcp_turn_authenticate hauth id
  · cases h
    exact .refuse (by rw [phase, hawait]; rfl) rfl rfl (fun _ => trivial)
      (by simp [Session.co_return, Run.to])
  -- the way to the loop
  · cases h
    exact .stay (by rw [phase, hawait]; rfl) rfl rfl rfl rfl id (by simp [Run.to, Neutral])
  · cases h
    exact .stay (by rw [phase, hawait]; rfl) rfl rfl rfl rfl id (by simp [Run.to, Neutral])
  · cases h
    apply tcp_turn_read_header (by rw [hawait]; rfl) id
    intro e he
    rcases List.mem_append.mp he with he | he
    · obtain ⟨item, _, rfl⟩ := List.mem_map.mp he
      trivial
    · rw [List.mem_singleton.mp he]; trivial
  -- the loop
  · cases h
    exact tcp_turn_dispatch (by rw [hawait]; rfl)
  · cases h
    exact .stay (by rw [phase, hawait]; rfl) rfl rfl rfl rfl id (by simp [Run.to, Neutral])
  · cases h
    exact tcp_turn_read_header (by rw [hawait]; rfl) id (by simp)
  · split_ifs at h
    cases h
    exact tcp_turn_chat (by rw [hawait]; rfl) id
  · cases h
    exact tcp_turn_read_header (by rw [hawait]; rfl) id (by simp)
  · cases h
    exact tcp_turn_read_header (by rw [hawait]; rfl) id (by simp)
  · split_ifs at h <;> cases h
    · exact .stay (by rw [phase, hawait]; rfl) rfl rfl rfl rfl id (by simp [Run.to, Neutral])
    · exact tcp_turn_typing_fan_out (by rw [hawait]; rfl) id
  · cases h
    exact tcp_turn_typing_fan_out (by rw [hawait]; rfl) id
  · split_ifs at h
    cases h
    exact tcp_turn_read_header (by rw [hawait]; rfl) id (by simp)
  -- the cleanup
  · cases h
    exact .finish (.inl (by rw [phase, hawait]; rfl)) (.inl rfl) rfl rfl (by simp [Run.to, Neutral])
  · cases h
    exact .finish (.inr (by rw [phase, hawait]; rfl)) (.inr rfl) rfl rfl (by simp [Run.to, Neutral])
  · split_ifs at h with htry
    cases h
    rcases tcp_phase_of_in_try htry with hauth | hlive
    · unfold Session.raise Run.cleanup
      rw [if_pos (h0 hauth)]
      exact .refuse hauth rfl rfl (fun _ => trivial) (by simp [Run.to, Neutral])
    · exact tcp_turn_raise hlive
  · cases h

end Tcp

section WebSocket

variable {r : Run WebSocketSession.Await} {ev : WebSocketSession.Event Stored}

/-- A resumption of `WebSocketSession::run`. -/
abbrev WsTurn (r : Run WebSocketSession.Await) (ev : WebSocketSession.Event Stored)
    (seg : Segment Stored WebSocketSession.Await) : Prop := Turn (.ws r) (.ws ev) (.ws seg.1) seg.2

theorem ws_turn_read_text {es : List (Effect Stored)} (h : ws_phase r.await = .live)
    (hev : ¬ Leaves (.ws ev)) (hes : ∀ e ∈ es, Neutral e) :
    WsTurn r ev (WebSocketSession.read_text r es) := by
  refine .stay h rfl rfl rfl rfl hev ?_
  intro e he
  rcases List.mem_append.mp he with he | he
  · exact hes e he
  · rw [List.mem_singleton.mp he]; trivial

/-- An exception, after what the segment did before it. -/
theorem ws_turn_raise (es : List (Effect Stored)) (h : ws_phase r.await = .live)
    (hev : Leaves (.ws ev)) (hes : ∀ e ∈ es, Neutral e) :
    let raised : Segment Stored WebSocketSession.Await := WebSocketSession.raise r
    WsTurn r ev (raised.1, es ++ raised.2) := by
  unfold WebSocketSession.raise Run.cleanup
  split
  · rename_i h0
    refine .vanish h rfl rfl rfl hev (.inl h0) ?_
    intro e he
    rcases List.mem_append.mp he with he | he
    · exact hes e he
    · rw [List.mem_singleton.mp he]; trivial
  · rename_i h0
    exact .leave h rfl rfl rfl h0 hev id hes

theorem ws_turn_refuse (h : ws_phase r.await = .auth) (h0 : r.user_id = 0) :
    WsTurn r ev (WebSocketSession.raise r) := by
  unfold WebSocketSession.raise Run.cleanup
  rw [if_pos h0]
  exact .refuse h rfl rfl (by simp [is_tcp]) (by simp [Run.to, Neutral])

theorem ws_turn_authenticate {verify : Bytes → Option UserId} {auth_j : Json}
    (h : ws_phase r.await = .auth) (h0 : r.user_id = 0) :
    WsTurn r ev (WebSocketSession.authenticate r verify auth_j) := by
  unfold WebSocketSession.authenticate
  split
  · exact ws_turn_refuse h h0
  · split_ifs
    · exact .refuse h rfl rfl (by simp [is_tcp]) (by simp [WebSocketSession.co_return, Run.to])
    · split
      · exact ws_turn_refuse h h0
      · split
        · exact .wait h rfl rfl rfl (by simp [is_tcp]) (by simp [Run.to, Neutral])
        · exact .enter h rfl rfl rfl (by simp [is_tcp]) rfl (by simp [Unregistered])

/-- A WebSocket session leaves on a flush that `enqueue` does not take. -/
theorem leaves_iff_not_takes {batch : List Stored} :
    Leaves (.ws (.frames batch)) ↔ ¬ batch.all (AnyRun.takes (.ws r)) := by
  simp only [List.all_eq_true, not_forall]
  refine exists_congr fun e => ?_
  rcases e with item | _ <;> simp [AnyRun.takes, AnyRun.dumps, Entry.message?]

theorem ws_turn_flush {batch : List Stored} (h : ws_phase r.await = .live) :
    WsTurn r (.frames batch) (WebSocketSession.flush r (AnyRun.takes (.ws r)) batch) := by
  have hq : ∀ e ∈ (batch.takeWhile (AnyRun.takes (.ws r))).map Effect.enqueue, Neutral e := by
    intro e he
    obtain ⟨entry, _, rfl⟩ := List.mem_map.mp he
    trivial
  unfold WebSocketSession.flush
  split_ifs with hall
  · apply ws_turn_read_text h
    · exact fun hev => leaves_iff_not_takes.mp hev hall
    · intro e he
      rcases List.mem_append.mp he with he | he
      · exact hq e he
      · rw [List.mem_singleton.mp he]; trivial
  · exact ws_turn_raise _ h (leaves_iff_not_takes.mpr hall) hq

theorem ws_turn_dispatch {j : Json} (h : ws_phase r.await = .live) :
    WsTurn r (.text (some j)) (WebSocketSession.dispatch r j) := by
  unfold WebSocketSession.dispatch
  split
  · rename_i hnone
    exact ws_turn_raise [] h hnone (List.forall_mem_nil Neutral)
  · rename_i type htype
    have hev : ¬ Leaves (.ws (.text (some j))) := by
      unfold Leaves
      simp [htype]
    split_ifs
    · exact ws_turn_read_text h hev (by simp [Neutral])
    · exact .stay h rfl rfl rfl rfl hev (by simp [Run.to, Neutral])
    · exact ws_turn_read_text h hev (by simp)

theorem ws_turn {verify : Bytes → Option UserId} {seg : Segment Stored WebSocketSession.Await}
    (h : WebSocketSession.resume r verify (AnyRun.takes (.ws r)) ev = some seg)
    (h0 : ws_phase r.await = .auth → r.user_id = 0) : WsTurn r ev seg := by
  unfold WebSocketSession.resume at h
  split at h <;> rename_i hawait
  -- the authentication
  · have hauth : ws_phase r.await = .auth := by rw [hawait]; rfl
    cases h
    exact .wait hauth rfl rfl rfl (by simp [is_tcp]) (by simp [Run.to, Neutral])
  · have hauth : ws_phase r.await = .auth := by rw [hawait]; rfl
    cases h
    exact .refuse hauth rfl rfl (by simp [is_tcp]) (by simp [WebSocketSession.co_return, Run.to])
  · have hauth : ws_phase r.await = .auth := by rw [hawait]; rfl
    cases h
    exact ws_turn_authenticate hauth (h0 hauth)
  · have hauth : ws_phase r.await = .auth := by rw [hawait]; rfl
    cases h
    exact .refuse hauth rfl rfl (by simp [is_tcp]) (by simp [WebSocketSession.co_return, Run.to])
  -- the way to the loop
  · cases h
    exact .stay (by rw [phase, hawait]; rfl) rfl rfl rfl rfl id (by simp [Run.to, Neutral])
  · cases h
    exact ws_turn_flush (by rw [hawait]; rfl)
  -- the loop
  · cases h
    exact ws_turn_read_text (by rw [hawait]; rfl) id (by simp)
  · cases h
    exact ws_turn_read_text (by rw [hawait]; rfl) id (by simp)
  · cases h
    exact ws_turn_dispatch (by rw [hawait]; rfl)
  · cases h
    exact ws_turn_read_text (by rw [hawait]; rfl) id (by simp)
  -- the cleanup
  · cases h
    exact .finish (.inl (by rw [phase, hawait]; rfl)) (.inl rfl) rfl rfl (by simp [Run.to, Neutral])
  · cases h
    exact .finish (.inr (by rw [phase, hawait]; rfl)) (.inr rfl) rfl rfl (by simp [Run.to, Neutral])
  · split_ifs at h with htry
    cases h
    rcases ws_phase_of_in_try htry with hauth | hlive
    · exact ws_turn_refuse hauth (h0 hauth)
    · exact ws_turn_raise [] hlive trivial (List.forall_mem_nil Neutral)
  · cases h

end WebSocket

/-- One resumption of a `run()`, of either kind. -/
theorem turn_of_resume {verify : Bytes → Option UserId} {r r' : AnyRun} {ev : AnyEvent}
    {es : List (Effect Stored)} (h : r.resume verify ev = some (r', es))
    (h0 : phase r = .auth → r.user_id = 0) : Turn r ev r' es := by
  unfold AnyRun.resume at h
  split at h
  · obtain ⟨seg, hseg, hr⟩ := Option.map_eq_some_iff.mp h
    cases hr
    exact tcp_turn hseg h0
  · obtain ⟨seg, hseg, hr⟩ := Option.map_eq_some_iff.mp h
    cases hr
    exact ws_turn hseg h0
  · cases h

/-! ## The effects of a segment -/

theorem net_append (es es' : List (Effect Stored)) : net (es ++ es') = net es + net es' := by
  induction es with
  | nil => simp [net]
  | cons e es ih => cases e <;> simp only [List.cons_append, net, ih] <;> omega

theorem net_neutral {es : List (Effect Stored)} (hes : ∀ e ∈ es, Neutral e) : net es = 0 := by
  induction es with
  | nil => rfl
  | cons e es ih =>
    have he := hes e List.mem_cons_self
    have htail := ih fun e he => hes e (List.mem_cons_of_mem _ he)
    cases e with
    | active_connections_increment | active_connections_decrement => exact he.elim
    | _ => exact htail

theorem net_farewell {es : List (Effect Stored)} (user_id : UserId) (hes : ∀ e ∈ es, Neutral e) :
    net (es ++ farewell user_id) = -1 := by
  rw [net_append, net_neutral hes]
  simp [net, farewell]

theorem unregistered_of_neutral {e : Effect Stored} (h : Neutral e) : Unregistered e := by
  cases e with
  | registry_insert | registry_remove => exact h
  | _ => trivial

section Register

variable {alive : Nat → Bool} {i : Nat} {reg : SessionRegistry Nat} {es : List (Effect Stored)}

theorem register_unregistered (hes : ∀ e ∈ es, Unregistered e) :
    es.foldl (register alive i) reg = reg := by
  induction es with
  | nil => rfl
  | cons e es ih =>
    have he := hes e List.mem_cons_self
    have htail := ih fun e he => hes e (List.mem_cons_of_mem _ he)
    cases e with
    | registry_insert | registry_remove => exact he.elim
    | _ => exact htail

theorem register_neutral (hes : ∀ e ∈ es, Neutral e) : es.foldl (register alive i) reg = reg :=
  register_unregistered fun e he => unregistered_of_neutral (hes e he)

theorem register_enter {user_id : UserId} (hes : ∀ e ∈ es, Unregistered e) :
    (.registry_insert user_id :: es).foldl (register alive i) reg = reg.insert user_id i := by
  rw [List.foldl_cons, register_unregistered hes]
  rfl

theorem register_leave {user_id : UserId} (hes : ∀ e ∈ es, Neutral e) :
    (es ++ farewell user_id).foldl (register alive i) reg = reg.remove alive user_id (some i) := by
  rw [List.foldl_append, register_neutral hes]
  rfl

end Register

/-! ## The steps -/

section Steps

variable {verify : Bytes → Option UserId} {w w' : Connections} {i : Nat} {ev : AnyEvent}

theorem run_eq_some {run : AnyRun} :
    w.run i = some run ↔ ∃ c, w.conns[i]? = some c ∧ c.stage = .running run := by
  unfold Connections.run
  split
  · rename_i c hc
    rw [hc]
    simp
  · rename_i hno
    constructor
    · intro h
      cases h
    · rintro ⟨⟨stage, alive, net⟩, hc, rfl⟩
      exact absurd hc (hno run alive net)

theorem handshake_eq_some {ok : Bool} (h : w.handshake i ok = some w') :
    ∃ c, w.conns[i]? = some c ∧ c.stage = .handshake ∧
      (w' = w.begin_session i ∨ w' = w.refuse i) := by
  unfold Connections.handshake at h
  split at h
  · rename_i hc
    refine ⟨_, hc, rfl, ?_⟩
    cases ok
    · exact .inr (Option.some.inj h).symm
    · exact .inl (Option.some.inj h).symm
  · cases h

theorem destroy_eq_some (h : w.destroy i = some w') :
    ∃ run, w.run i = some run ∧ run.active = false ∧ w' = w.free i := by
  obtain ⟨run, hrun, h⟩ := Option.bind_eq_some_iff.mp h
  split at h
  · cases h
  · rename_i hactive
    exact ⟨run, hrun, by simpa using hactive, (Option.some.inj h).symm⟩

/-- A user is only known after the authentication. -/
def Sound (w : Connections) : Prop :=
  ∀ c ∈ w.conns, ∀ run, c.stage = .running run → phase run = .auth → run.user_id = 0

theorem resume_eq_some (hs : Sound w) (h : w.resume verify i ev = some w') :
    ∃ c run run' es, w.conns[i]? = some c ∧ c.stage = .running run ∧
      run.resume verify ev = some (run', es) ∧ Turn run ev run' es ∧
      w' = w.turn i run ev run' es := by
  obtain ⟨run, hrun, h⟩ := Option.bind_eq_some_iff.mp h
  obtain ⟨⟨run', es⟩, hres, rfl⟩ := Option.map_eq_some_iff.mp h
  obtain ⟨c, hc, hstage⟩ := run_eq_some.mp hrun
  have hauth := hs c (List.mem_of_getElem? hc) run hstage
  exact ⟨c, run, run', es, hc, hstage, hres, turn_of_resume hres hauth, rfl⟩

theorem getElem?_turn {c : Connection} {run run' : AnyRun} {es : List (Effect Stored)}
    (hc : w.conns[i]? = some c) : (w.turn i run ev run' es).conns[i]? =
      some { c with stage := .running run', net := c.net + net es } := by
  simp only [Connections.turn, List.getElem?_modify_eq, hc]
  rfl

/-- What holds of all connections still does when one of them has changed to hold it. -/
theorem forall_modify {P : Connection → Prop} {l : List Connection} {f : Connection → Connection}
    {c : Connection} (hl : ∀ c ∈ l, P c) (hc : l[i]? = some c) (hf : P (f c)) :
    ∀ c ∈ l.modify i f, P c := by
  intro x hx
  obtain ⟨j, hj⟩ := List.mem_iff_getElem?.mp hx
  by_cases hij : i = j
  · subst hij
    rw [List.getElem?_modify_eq, hc] at hj
    exact Option.some.inj hj ▸ hf
  · rw [List.getElem?_modify_ne _ _ hij] at hj
    exact hl x (List.mem_of_getElem? hj)

theorem sound_start : Sound (listeners verify).start := by
  intro c hc
  cases hc

theorem turn_sound {run run' : AnyRun} {es : List (Effect Stored)} (ht : Turn run ev run' es)
    (h0 : phase run = .auth → run.user_id = 0) : phase run' = .auth → run'.user_id = 0 := by
  intro hauth
  cases ht with
  | wait h h' hk hu hev hes => exact hu.trans (h0 h)
  | finish h h' => rcases h' with h' | h' <;> simp [h'] at hauth
  | refuse h h' | enter h h' | stay h h' | leave h h' | vanish h h' => simp [h'] at hauth

theorem sound_step {a : Label} (hs : Sound w) (h : (listeners verify).step w a = some w') :
    Sound w' := by
  cases a with
  | accept =>
    cases h
    intro c hc run hrun
    rcases List.mem_append.mp hc with hc | hc
    · exact hs c hc run hrun
    · rw [List.mem_singleton.mp hc] at hrun
      cases hrun
  | upgrade =>
    cases h
    intro c hc run hrun
    rcases List.mem_append.mp hc with hc | hc
    · exact hs c hc run hrun
    · rw [List.mem_singleton.mp hc] at hrun
      cases hrun
      exact fun _ => rfl
  | handshake i ok =>
    obtain ⟨c, hc, hstage, rfl | rfl⟩ := handshake_eq_some h
    · refine forall_modify hs hc fun run hrun => ?_
      cases hrun
      exact fun _ => rfl
    · refine forall_modify hs hc fun run hrun => ?_
      cases hrun
  | resume i ev =>
    obtain ⟨c, run, run', es, hc, hstage, _, ht, rfl⟩ := resume_eq_some hs h
    refine forall_modify hs hc fun r hr => ?_
    cases hr
    exact turn_sound ht (hs c (List.mem_of_getElem? hc) run hstage)
  | destroy i =>
    obtain ⟨run, hrun, hactive, rfl⟩ := destroy_eq_some h
    obtain ⟨c, hc, hstage⟩ := run_eq_some.mp hrun
    exact forall_modify hs hc (hs c (List.mem_of_getElem? hc))
  | tick ms =>
    cases h
    exact hs

/-! ### The sessions that exist -/

theorem run_congr (h : w'.conns[i]? = w.conns[i]?) : w'.run i = w.run i := by
  unfold Connections.run
  rw [h]

theorem alive_congr (h : w'.conns[i]? = w.conns[i]?) : w'.alive i = w.alive i := by
  unfold Connections.alive
  rw [h]

theorem run_modify_ne {f : Connection → Connection} {j : Nat}
    (h : w'.conns = w.conns.modify i f) (hne : i ≠ j) : w'.run j = w.run j := by
  apply run_congr
  rw [h, List.getElem?_modify_ne _ _ hne]

/-- A change of a connection that neither makes nor destroys a session. -/
theorem alive_modify {f : Connection → Connection} (h : w'.conns = w.conns.modify i f)
    (hf : ∀ c, (f c).alive = c.alive) : w'.alive = w.alive := by
  funext j
  unfold Connections.alive
  rw [h]
  by_cases hij : i = j
  · subst hij
    rw [List.getElem?_modify_eq]
    cases w.conns[i]? <;> simp [hf]
  · rw [List.getElem?_modify_ne _ _ hij]

theorem alive_turn {run run' : AnyRun} {es : List (Effect Stored)} :
    (w.turn i run ev run' es).alive = w.alive := by
  refine alive_modify rfl ?_
  intro c
  rfl

theorem alive_begin_session : (w.begin_session i).alive = w.alive := by
  refine alive_modify rfl ?_
  intro c
  rfl

theorem alive_refuse : (w.refuse i).alive = w.alive := by
  refine alive_modify rfl ?_
  intro c
  rfl

theorem getElem?_open {stage : Stage} {n : Int} {j : Nat} (h : j < w.conns.length) :
    (w.open_connection stage n).conns[j]? = w.conns[j]? :=
  List.getElem?_append_left h

theorem lookup_turn {run run' : AnyRun} {es : List (Effect Stored)} {u : UserId} :
    (w.turn i run ev run' es).lookup u =
      (es.foldl (register w.alive i) w.registry).lookup w.alive u := by
  unfold Connections.lookup
  rw [alive_turn]
  rfl

theorem run_turn {run run' : AnyRun} {es : List (Effect Stored)} (h : w.run i = some run) :
    (w.turn i run ev run' es).run i = some run' := by
  obtain ⟨c, hc, hstage⟩ := run_eq_some.mp h
  exact run_eq_some.mpr ⟨_, getElem?_turn hc, rfl⟩

theorem phase_of_not_active {run : AnyRun} (h : run.active = false) : phase run = .done := by
  cases run with
  | tcp r =>
    have hdone : r.await = .done := by simpa [AnyRun.active] using h
    rw [phase, hdone]
    rfl
  | ws r =>
    have hdone : r.await = .done := by simpa [AnyRun.active] using h
    rw [phase, hdone]
    rfl

/-- A coroutine that has returned is not resumed. -/
theorem turn_not_done {run run' : AnyRun} {es : List (Effect Stored)} (ht : Turn run ev run' es) :
    phase run ≠ .done := by
  cases ht with
  | finish h => rcases h with h | h <;> simp [h]
  | wait h | refuse h | enter h | stay h | leave h | vanish h => simp [h]

/-- A session exists until its `run()` has returned. -/
def Kept (w : Connections) : Prop :=
  ∀ c ∈ w.conns, c.alive ∨ ∃ run, c.stage = .running run ∧ phase run = .done

theorem alive_of_run {run : AnyRun} (hk : Kept w) (h : w.run i = some run)
    (hdone : phase run ≠ .done) : w.alive i := by
  obtain ⟨c, hc, hstage⟩ := run_eq_some.mp h
  rcases hk c (List.mem_of_getElem? hc) with halive | ⟨r, hr, hd⟩
  · simp [Connections.alive, hc, halive]
  · rw [hstage] at hr
    exact absurd (Stage.running.inj hr ▸ hd) hdone

theorem kept_start : Kept (listeners verify).start := by
  intro c hc
  cases hc

theorem kept_step {a : Label} (hs : Sound w) (hk : Kept w)
    (h : (listeners verify).step w a = some w') : Kept w' := by
  cases a with
  | accept | upgrade =>
    cases h
    intro c hc
    rcases List.mem_append.mp hc with hc | hc
    · exact hk c hc
    · rw [List.mem_singleton.mp hc]
      exact .inl rfl
  | handshake i ok =>
    obtain ⟨c, hc, hstage, rfl | rfl⟩ := handshake_eq_some h
    all_goals
      have halive : c.alive := by
        rcases hk c (List.mem_of_getElem? hc) with halive | ⟨r, hr, _⟩
        · exact halive
        · simp [hstage] at hr
      exact forall_modify hk hc (.inl halive)
  | resume i ev =>
    obtain ⟨c, run, run', es, hc, hstage, _, ht, rfl⟩ := resume_eq_some hs h
    refine forall_modify hk hc (.inl ?_)
    rcases hk c (List.mem_of_getElem? hc) with halive | ⟨r, hr, hdone⟩
    · exact halive
    · rw [hstage] at hr
      exact absurd (Stage.running.inj hr ▸ hdone) (turn_not_done ht)
  | destroy i =>
    obtain ⟨run, hrun, hactive, rfl⟩ := destroy_eq_some h
    obtain ⟨c, hc, hstage⟩ := run_eq_some.mp hrun
    exact forall_modify hk hc (.inr ⟨run, hstage, phase_of_not_active hactive⟩)
  | tick ms =>
    cases h
    exact hk

end Steps

end loomic.connections
