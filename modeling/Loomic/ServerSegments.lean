-- What a segment of `run()` can do to the server, whichever kind of session it
-- is: it lets the user in, it flushes the offline queue, or it goes on.
import Loomic.Server
import Mathlib.Data.List.TakeWhile

open loomic.frame loomic.json loomic.session_run

namespace loomic.server

/-- An effect that neither inserts into the registry nor enqueues. -/
def Plain : Effect Stored → Prop
  | .registry_insert _ | .enqueue _ => False
  | _ => True

/-- An effect that starts a routing. -/
def Routes : Effect Stored → Prop
  | .route_message _ _ | .route_text _ _ => True
  | _ => False

inductive Goes (r : AnyRun) (ev : AnyEvent) : AnyRun → List (Effect Stored) → Prop
  | enter {r' es} (h : r.in_auth) (hb : ev.batch = none) (h' : r'.in_auth = false)
      (ha : r'.active) (hes : ∀ e ∈ es, Plain e ∧ ¬ Routes e) :
      Goes r ev r' (.registry_insert r'.user_id :: es)
  | flush {r' es batch} (h : r.in_auth = false) (ha : r.active) (hb : ev.batch = some batch)
      (h' : r'.in_auth = false) (hu : r'.user_id = r.user_id)
      (hes : ∀ e ∈ es, Plain e ∧ ¬ Routes e) :
      Goes r ev r' ((batch.takeWhile r.takes).map .enqueue ++ es)
  | go_on {r' es} (ha : r.active) (hb : ev.batch = none) (hu : r'.user_id = r.user_id)
      (h : r'.in_auth → r.in_auth) (h' : r'.in_auth = false → r'.active → r.in_auth = false)
      (hes : ∀ e ∈ es, Plain e) (hr : r.in_auth → ∀ e ∈ es, ¬ Routes e) : Goes r ev r' es

/-! ## What both kinds of session do -/

section Both

variable {Await : Type} {any : Run Await → AnyRun} {r : Run Await} {ev : AnyEvent}
  {await : Await} {es : List (Effect Stored)}

/-- A segment after the authentication. -/
theorem goes_to (huser : ∀ r, (any r).user_id = r.user_id) (h : (any r).in_auth = false)
    (ha : (any r).active) (hb : ev.batch = none) (h' : (any { r with await }).in_auth = false)
    (hes : ∀ e ∈ es, Plain e) : Goes (any r) ev (any (r.to await es).1) (r.to await es).2 := by
  refine .go_on ha hb ?_ ?_ (fun _ _ => h) hes ?_
  · rw [huser, huser]
    rfl
  · intro hin
    rw [Run.to, h'] at hin
    exact absurd hin (by decide)
  · intro hin
    rw [h] at hin
    exact absurd hin (by decide)

/-- A segment before the authentication: the wait for it goes on, or `run()` ends. -/
theorem goes_refused (huser : ∀ r, (any r).user_id = r.user_id) (h : (any r).in_auth)
    (ha : (any r).active) (hb : ev.batch = none)
    (h' : (any { r with await }).in_auth ∨ (any { r with await }).active = false)
    (hes : ∀ e ∈ es, Plain e ∧ ¬ Routes e) :
    Goes (any r) ev (any (r.to await es).1) (r.to await es).2 := by
  refine .go_on ha hb ?_ (fun _ => h) ?_ (fun e he => (hes e he).1) (fun _ e he => (hes e he).2)
  · rw [huser, huser]
    rfl
  · intro hin hact
    rw [Run.to] at hin hact
    rcases h' with h' | h'
    · rw [h'] at hin
      exact absurd hin (by decide)
    · rw [h'] at hact
      exact absurd hact (by decide)

end Both

theorem plain_append_singleton {es : List (Effect Stored)} {e : Effect Stored}
    (hes : ∀ e ∈ es, Plain e) (he : Plain e) : ∀ e' ∈ es ++ [e], Plain e' := by
  intro e' he'
  rcases List.mem_append.mp he' with he' | he'
  · exact hes e' he'
  · exact List.mem_singleton.mp he' ▸ he

/-! ## Session -/

section Tcp

abbrev TcpGoes (r : Run Session.Await) (ev : Session.Event Stored)
    (seg : Segment Stored Session.Await) : Prop := Goes (.tcp r) (.tcp ev) (.tcp seg.1) seg.2

variable {r : Run Session.Await} {verify : Bytes → Option UserId} {ev : Session.Event Stored}

theorem tcp_goes_to {await : Session.Await} {es : List (Effect Stored)}
    (h : (AnyRun.tcp r).in_auth = false) (ha : (AnyRun.tcp r).active)
    (hb : (AnyEvent.tcp ev).batch = none) (h' : (AnyRun.tcp { r with await }).in_auth = false)
    (hes : ∀ e ∈ es, Plain e) : TcpGoes r ev (r.to await es) :=
  goes_to (fun _ => rfl) h ha hb h' hes

theorem tcp_goes_refused {await : Session.Await} {es : List (Effect Stored)}
    (h : (AnyRun.tcp r).in_auth) (ha : (AnyRun.tcp r).active)
    (hb : (AnyEvent.tcp ev).batch = none)
    (h' : (AnyRun.tcp { r with await }).in_auth ∨ (AnyRun.tcp { r with await }).active = false)
    (hes : ∀ e ∈ es, Plain e ∧ ¬ Routes e) : TcpGoes r ev (r.to await es) :=
  goes_refused (fun _ => rfl) h ha hb h' hes

theorem tcp_goes_read_header {es : List (Effect Stored)} (h : (AnyRun.tcp r).in_auth = false)
    (ha : (AnyRun.tcp r).active) (hb : (AnyEvent.tcp ev).batch = none)
    (hes : ∀ e ∈ es, Plain e) : TcpGoes r ev (Session.read_header r es) :=
  tcp_goes_to h ha hb rfl (plain_append_singleton hes trivial)

theorem tcp_goes_authenticate {token : Bytes} (h : (AnyRun.tcp r).in_auth)
    (ha : (AnyRun.tcp r).active) (hb : (AnyEvent.tcp ev).batch = none) :
    TcpGoes r ev (Session.authenticate r verify token) := by
  unfold Session.authenticate
  split
  · exact tcp_goes_refused h ha hb (.inl rfl) (by simp [Plain, Routes])
  · exact @Goes.enter _ _ (.tcp _) _ h hb rfl rfl (by simp [Plain, Routes])

theorem tcp_goes_chat {hdr : FrameHeader} {payload : Bytes} {allowed : Bool}
    (h : (AnyRun.tcp r).in_auth = false) (ha : (AnyRun.tcp r).active)
    (hb : (AnyEvent.tcp ev).batch = none) :
    TcpGoes r ev (Session.chat r hdr payload allowed) := by
  unfold Session.chat
  split
  · exact tcp_goes_to h ha hb rfl (by simp [Plain])
  · exact tcp_goes_to h ha hb rfl (by simp [Plain])

theorem tcp_goes_typing_fan_out {hdr : FrameHeader} {members : List UserId}
    (h : (AnyRun.tcp r).in_auth = false) (ha : (AnyRun.tcp r).active)
    (hb : (AnyEvent.tcp ev).batch = none) :
    TcpGoes r ev (Session.typing_fan_out r hdr members) := by
  refine tcp_goes_read_header h ha hb fun e he => ?_
  obtain ⟨member_id, _, rfl⟩ := List.mem_map.mp he
  trivial

theorem tcp_goes_dispatch {hdr : FrameHeader} {allowed : Bool}
    (h : (AnyRun.tcp r).in_auth = false) (ha : (AnyRun.tcp r).active)
    (hb : (AnyEvent.tcp ev).batch = none) :
    TcpGoes r ev (Session.dispatch r hdr allowed) := by
  unfold Session.dispatch
  split_ifs
  · exact tcp_goes_to h ha hb rfl (by simp [Plain])
  · exact tcp_goes_to h ha hb rfl (by simp)
  · exact tcp_goes_chat h ha hb
  · exact tcp_goes_to h ha hb rfl (by simp [Plain])
  · exact tcp_goes_to h ha hb rfl (by simp [Plain])
  · exact tcp_goes_read_header h ha hb (by simp [Plain])
  · exact tcp_goes_to h ha hb rfl (by simp [Plain])
  · exact tcp_goes_read_header h ha hb (by simp)

theorem tcp_goes_raise (h0 : (AnyRun.tcp r).in_auth → r.user_id = 0)
    (ha : (AnyRun.tcp r).active) (hb : (AnyEvent.tcp ev).batch = none) :
    TcpGoes r ev (Session.raise r) := by
  unfold TcpGoes Session.raise Run.cleanup
  rcases hin : (AnyRun.tcp r).in_auth with _ | _
  · split_ifs
    · exact tcp_goes_to hin ha hb rfl (by simp [Plain])
    · exact tcp_goes_to hin ha hb rfl (by simp [Plain])
  · rw [if_pos (h0 hin)]
    exact tcp_goes_refused hin ha hb (.inr rfl) (by simp [Plain, Routes])

/-- All deliveries of the offline queue are enqueued. -/
theorem tcp_goes_flush {batch : List Stored} (h : (AnyRun.tcp r).in_auth = false)
    (ha : (AnyRun.tcp r).active) :
    TcpGoes r (.frames batch)
      (Session.read_header r (batch.map .enqueue ++ [.spawn_heartbeat_loop])) := by
  have hall : batch.takeWhile (AnyRun.tcp r).takes = batch :=
    List.takeWhile_eq_self_iff.mpr fun e _ => by cases e <;> rfl
  have hes : (batch.map Effect.enqueue ++ [.spawn_heartbeat_loop]) ++ [.read_frame_header] =
      (batch.takeWhile (AnyRun.tcp r).takes).map .enqueue ++
        [.spawn_heartbeat_loop, .read_frame_header] := by
    rw [hall, List.append_assoc]
    rfl
  unfold TcpGoes Session.read_header Run.to
  rw [hes]
  exact .flush h ha rfl rfl rfl (by simp [Plain, Routes])

theorem tcp_goes {seg : Segment Stored Session.Await}
    (h0 : (AnyRun.tcp r).in_auth → r.user_id = 0) (h : Session.resume r verify ev = some seg) :
    TcpGoes r ev seg := by
  have hin : ∀ {await}, r.await = await →
      (AnyRun.tcp r).in_auth = (AnyRun.tcp { r with await }).in_auth := by
    rintro _ rfl
    rfl
  have hact : ∀ {await}, r.await = await → await ≠ .done → (AnyRun.tcp r).active := by
    rintro _ rfl hne
    simpa [AnyRun.active] using hne
  unfold Session.resume at h
  split at h <;> rename_i hawait
  all_goals try have ha := hact hawait (by simp)
  all_goals try have hi := hin hawait
  -- the waits of the authentication
  · split_ifs at h <;> cases h
    · exact tcp_goes_refused hi ha rfl (.inr rfl) (by simp)
    · exact tcp_goes_authenticate hi ha rfl
    · exact tcp_goes_refused hi ha rfl (.inl rfl) (by simp [Plain, Routes])
  · split_ifs at h
    cases h
    exact tcp_goes_authenticate hi ha rfl
  · cases h
    exact tcp_goes_refused hi ha rfl (.inr rfl) (by simp)
  -- the way to the loop
  · cases h
    exact tcp_goes_to hi ha rfl rfl (by simp [Plain])
  · cases h
    exact tcp_goes_to hi ha rfl rfl (by simp [Plain])
  · cases h
    exact tcp_goes_flush hi ha
  -- the loop
  · cases h
    exact tcp_goes_dispatch hi ha rfl
  · cases h
    exact tcp_goes_to hi ha rfl rfl (by simp [Plain])
  · cases h
    exact tcp_goes_read_header hi ha rfl (by simp)
  · split_ifs at h
    cases h
    exact tcp_goes_chat hi ha rfl
  · cases h
    exact tcp_goes_read_header hi ha rfl (by simp)
  · cases h
    exact tcp_goes_read_header hi ha rfl (by simp)
  · split_ifs at h <;> cases h
    · exact tcp_goes_to hi ha rfl rfl (by simp [Plain])
    · exact tcp_goes_typing_fan_out hi ha rfl
  · cases h
    exact tcp_goes_typing_fan_out hi ha rfl
  · split_ifs at h
    cases h
    exact tcp_goes_read_header hi ha rfl (by simp)
  -- the cleanup
  · cases h
    exact tcp_goes_to hi ha rfl rfl (by simp [Plain])
  · cases h
    exact tcp_goes_to hi ha rfl rfl (by simp [Plain])
  · split_ifs at h with htry
    cases h
    refine tcp_goes_raise h0 (hact rfl fun hd => ?_) rfl
    simp [hd, Session.Await.in_try] at htry
  · simp at h

end Tcp

/-! ## WebSocketSession -/

section WebSocket

abbrev WsGoes (r : Run WebSocketSession.Await) (ev : WebSocketSession.Event Stored)
    (seg : Segment Stored WebSocketSession.Await) : Prop := Goes (.ws r) (.ws ev) (.ws seg.1) seg.2

variable {r : Run WebSocketSession.Await} {verify : Bytes → Option UserId}
  {ev : WebSocketSession.Event Stored}

theorem ws_goes_to {await : WebSocketSession.Await} {es : List (Effect Stored)}
    (h : (AnyRun.ws r).in_auth = false) (ha : (AnyRun.ws r).active)
    (hb : (AnyEvent.ws ev).batch = none) (h' : (AnyRun.ws { r with await }).in_auth = false)
    (hes : ∀ e ∈ es, Plain e) : WsGoes r ev (r.to await es) :=
  goes_to (fun _ => rfl) h ha hb h' hes

theorem ws_goes_refused {await : WebSocketSession.Await} {es : List (Effect Stored)}
    (h : (AnyRun.ws r).in_auth) (ha : (AnyRun.ws r).active) (hb : (AnyEvent.ws ev).batch = none)
    (h' : (AnyRun.ws { r with await }).in_auth ∨ (AnyRun.ws { r with await }).active = false)
    (hes : ∀ e ∈ es, Plain e ∧ ¬ Routes e) : WsGoes r ev (r.to await es) :=
  goes_refused (fun _ => rfl) h ha hb h' hes

theorem ws_goes_read_text {es : List (Effect Stored)} (h : (AnyRun.ws r).in_auth = false)
    (ha : (AnyRun.ws r).active) (hb : (AnyEvent.ws ev).batch = none)
    (hes : ∀ e ∈ es, Plain e) : WsGoes r ev (WebSocketSession.read_text r es) :=
  ws_goes_to h ha hb rfl (plain_append_singleton hes trivial)

theorem ws_goes_raise (h0 : (AnyRun.ws r).in_auth → r.user_id = 0) (ha : (AnyRun.ws r).active)
    (hb : (AnyEvent.ws ev).batch = none) : WsGoes r ev (WebSocketSession.raise r) := by
  unfold WsGoes WebSocketSession.raise Run.cleanup
  rcases hin : (AnyRun.ws r).in_auth with _ | _
  · split_ifs
    · exact ws_goes_to hin ha hb rfl (by simp [Plain])
    · exact ws_goes_to hin ha hb rfl (by simp [Plain])
  · rw [if_pos (h0 hin)]
    exact ws_goes_refused hin ha hb (.inr rfl) (by simp [Plain, Routes])

theorem ws_goes_authenticate {auth_j : Json} (h0 : (AnyRun.ws r).in_auth → r.user_id = 0)
    (h : (AnyRun.ws r).in_auth) (ha : (AnyRun.ws r).active)
    (hb : (AnyEvent.ws ev).batch = none) :
    WsGoes r ev (WebSocketSession.authenticate r verify auth_j) := by
  unfold WebSocketSession.authenticate
  split
  · exact ws_goes_raise h0 ha hb
  · split_ifs
    · exact ws_goes_refused h ha hb (.inr rfl) (by simp)
    · split
      · exact ws_goes_raise h0 ha hb
      · split
        · exact ws_goes_refused h ha hb (.inl rfl) (by simp [Plain, Routes])
        · exact @Goes.enter _ _ (.ws _) _ h hb rfl rfl (by simp [Plain, Routes])

theorem ws_goes_dispatch {j : Json} (h0 : (AnyRun.ws r).in_auth → r.user_id = 0)
    (h : (AnyRun.ws r).in_auth = false) (ha : (AnyRun.ws r).active)
    (hb : (AnyEvent.ws ev).batch = none) : WsGoes r ev (WebSocketSession.dispatch r j) := by
  unfold WebSocketSession.dispatch
  split
  · exact ws_goes_raise h0 ha hb
  · split_ifs
    · exact ws_goes_read_text h ha hb (by simp [Plain])
    · exact ws_goes_to h ha hb rfl (by simp [Plain])
    · exact ws_goes_read_text h ha hb (by simp)

/-- The deliveries up to the first that cannot be dumped are enqueued. -/
theorem ws_goes_flush {batch : List Stored} (h : (AnyRun.ws r).in_auth = false)
    (ha : (AnyRun.ws r).active) :
    WsGoes r (.frames batch) (WebSocketSession.flush r (AnyRun.ws r).takes batch) := by
  unfold WsGoes WebSocketSession.flush
  split
  · simp only [WebSocketSession.read_text, Run.to, List.append_assoc]
    exact .flush h ha rfl rfl rfl (by simp [Plain, Routes])
  · unfold WebSocketSession.raise Run.cleanup
    split_ifs
    · exact .flush h ha rfl rfl rfl (by simp [Run.to, Plain, Routes])
    · exact .flush h ha rfl rfl rfl (by simp [Run.to, Plain, Routes])

theorem ws_goes {seg : Segment Stored WebSocketSession.Await}
    (h0 : (AnyRun.ws r).in_auth → r.user_id = 0)
    (h : WebSocketSession.resume r verify (AnyRun.ws r).takes ev = some seg) :
    WsGoes r ev seg := by
  have hin : ∀ {await}, r.await = await →
      (AnyRun.ws r).in_auth = (AnyRun.ws { r with await }).in_auth := by
    rintro _ rfl
    rfl
  have hact : ∀ {await}, r.await = await → await ≠ .done → (AnyRun.ws r).active := by
    rintro _ rfl hne
    simpa [AnyRun.active] using hne
  unfold WebSocketSession.resume at h
  split at h <;> rename_i hawait
  all_goals try have ha := hact hawait (by simp)
  all_goals try have hi := hin hawait
  -- the waits of the authentication
  · cases h
    exact ws_goes_refused hi ha rfl (.inl rfl) (by simp [Plain, Routes])
  · cases h
    exact ws_goes_refused hi ha rfl (.inr rfl) (by simp)
  · cases h
    exact ws_goes_authenticate h0 hi ha rfl
  · cases h
    exact ws_goes_refused hi ha rfl (.inr rfl) (by simp)
  -- the way to the loop
  · cases h
    exact ws_goes_to hi ha rfl rfl (by simp [Plain])
  · cases h
    exact ws_goes_flush hi ha
  -- the loop
  · cases h
    exact ws_goes_read_text hi ha rfl (by simp)
  · cases h
    exact ws_goes_read_text hi ha rfl (by simp)
  · cases h
    exact ws_goes_dispatch h0 hi ha rfl
  · cases h
    exact ws_goes_read_text hi ha rfl (by simp)
  -- the cleanup
  · cases h
    exact ws_goes_to hi ha rfl rfl (by simp [Plain])
  · cases h
    exact ws_goes_to hi ha rfl rfl (by simp [Plain])
  · split_ifs at h with htry
    cases h
    refine ws_goes_raise h0 (hact rfl fun hd => ?_) rfl
    simp [hd, WebSocketSession.Await.in_try] at htry
  · simp at h

end WebSocket

/-- What a segment of either kind does. -/
theorem segment_goes {verify : Bytes → Option UserId} {r r' : AnyRun} {ev : AnyEvent}
    {es : List (Effect Stored)} (h0 : r.in_auth → r.user_id = 0)
    (h : r.resume verify ev = some (r', es)) : Goes r ev r' es := by
  unfold AnyRun.resume at h
  split at h
  · obtain ⟨seg, hseg, he⟩ := Option.map_eq_some_iff.mp h
    obtain ⟨rfl, rfl⟩ := Prod.mk.inj he
    exact tcp_goes h0 hseg
  · obtain ⟨seg, hseg, he⟩ := Option.map_eq_some_iff.mp h
    obtain ⟨rfl, rfl⟩ := Prod.mk.inj he
    exact ws_goes h0 hseg
  · simp at h

end loomic.server
