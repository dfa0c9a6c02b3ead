-- The sockets of the gateway's connection: what is written on each of them, and
-- which of them is the current one.
import Loomic.ChatGateway

open loomic.chat_protocol loomic.frame loomic.json machines

namespace loomic.chat_gateway

/-! ## One socket -/

/-- The frames written on a socket, oldest first. -/
def State.frames (s : State) (k : Nat) : List FrameParams :=
  (s.written.filter (·.1 = k)).map (·.2)

/-- The handshake of the socket has ended. -/
def State.secured (s : State) (k : Nat) : Bool := (s.sockets[k]?).any (·.secured)

/-- The handshake has ended, and the socket is not destroyed. -/
def State.authenticated (s : State) (k : Nat) : Bool :=
  (s.sockets[k]?).any fun socket => socket.secured && !socket.destroyed

/-- The first frame is the AUTH frame, and no other is. -/
def AuthFirst (frames : List FrameParams) : Prop :=
  ∀ f fs, frames = f :: fs → f.msg_type = WireMessageType.AUTH ∧
    ∀ g ∈ fs, g.msg_type ≠ WireMessageType.AUTH

/-- Whoever is signed in is the current socket. -/
def OneCurrent (s : State) : Prop := ∀ k, s.authenticated k = true → s.socket = some k

/-- No socket is closed or secured while another one that is signed in is the current one. -/
def NoOther (s : State) : Label → Prop
  | .close k | .secure_connect k =>
    ∀ j ∈ s.socket, j ≠ k → s.authenticated j = false
  | _ => True

instance (s : State) : ∀ a, Decidable (NoOther s a)
  | .close _ | .secure_connect _ => inferInstanceAs (Decidable (∀ j ∈ s.socket, _))
  | .ensure_connected _ | .send_message _ _ | .disconnect | .subscribe | .unsubscribe
  | .connect_ends | .send_goes_on _ | .breaks _ | .auth_written _ _ | .data _ _ | .error _ _
  | .heartbeat | .reconnect | .idle => isTrue trivial

/-! ## What a step can do to the sockets -/

/-- Nothing is written, no socket is signed in, and none comes to life again. -/
structure Calm (s s' : State) : Prop where
  written : s'.written = s.written
  length : s.sockets.length ≤ s'.sockets.length
  secured : ∀ k, s.secured k = true → s'.secured k = true
  authenticated : ∀ k, s'.authenticated k = true → s.authenticated k = true
  live : ∀ k < s.sockets.length, s'.live k = true → s.live k = true

section Calm

variable {s s' s'' : State} {k : Nat}

theorem Calm.refl (s : State) : Calm s s :=
  ⟨rfl, Nat.le_refl _, fun _ h => h, fun _ h => h, fun _ _ h => h⟩

theorem Calm.trans (h : Calm s s') (h' : Calm s' s'') : Calm s s'' where
  written := h'.written.trans h.written
  length := Nat.le_trans h.length h'.length
  secured := fun k hk => h'.secured k (h.secured k hk)
  authenticated := fun k hk => h.authenticated k (h'.authenticated k hk)
  live := fun k hk hlive => h.live k hk (h'.live k (Nat.lt_of_lt_of_le hk h.length) hlive)

/-- A change of the other fields. -/
theorem calm_of_eq (hwritten : s'.written = s.written) (hsockets : s'.sockets = s.sockets) :
    Calm s s' := by
  refine ⟨hwritten, by rw [hsockets], ?_, ?_, ?_⟩
  · unfold State.secured
    rw [hsockets]
    exact fun _ h => h
  · unfold State.authenticated
    rw [hsockets]
    exact fun _ h => h
  · unfold State.live
    rw [hsockets]
    exact fun _ _ h => h

theorem get_update (f : Socket → Socket) (j : Nat) : (s.update k f).sockets[j]? =
    (s.sockets[j]?).map fun x => if k = j then f x else x := by
  unfold State.update
  rw [List.getElem?_modify]
  by_cases hkj : k = j
  · simp [hkj]
  · simp [hkj]

/-- A socket whose handshake does not end, and that is not revived. -/
theorem calm_update {f : Socket → Socket} (hsecured : ∀ x, (f x).secured = x.secured)
    (hdestroyed : ∀ x, x.destroyed = true → (f x).destroyed = true) : Calm s (s.update k f) := by
  have hlive : ∀ x, (f x).destroyed = false → x.destroyed = false := by
    intro x hx
    by_contra hne
    rw [hdestroyed x (by simpa using hne)] at hx
    cases hx
  refine ⟨rfl, ?_, ?_, ?_, ?_⟩
  · unfold State.update
    rw [List.length_modify]
  · intro j hj
    unfold State.secured at *
    rw [get_update]
    cases hget : s.sockets[j]? with
    | none => simp [hget] at hj
    | some x =>
      have hx : x.secured = true := by simpa [hget] using hj
      by_cases hkj : k = j <;> simp [hkj, hsecured, hx]
  · intro j hj
    unfold State.authenticated at *
    rw [get_update] at hj
    cases hget : s.sockets[j]? with
    | none => simp [hget] at hj
    | some x =>
      by_cases hkj : k = j
      · simp [hget, hkj, hsecured] at hj
        simp [hj.1, hlive x hj.2]
      · simpa [hget, hkj] using hj
  · intro j _ hj
    unfold State.live at *
    rw [get_update] at hj
    cases hget : s.sockets[j]? with
    | none => simp [hget] at hj
    | some x =>
      by_cases hkj : k = j
      · simp [hget, hkj] at hj
        simp [hlive x hj]
      · simpa [hget, hkj] using hj

theorem calm_destroy : Calm s (s.destroy k) := calm_update (fun _ => rfl) fun _ _ => rfl

theorem calm_settle : Calm s (s.settle k) := calm_update (fun _ => rfl) fun _ h => h

theorem calm_destroy_live : Calm s s.destroy_live := by
  unfold State.destroy_live
  split
  · exact Calm.refl s
  · exact calm_destroy

/-- A new socket has no handshake. -/
theorem calm_open_socket : Calm s s.open_socket := by
  have hget : ∀ k, s.open_socket.sockets[k]? =
      if k < s.sockets.length then s.sockets[k]?
      else if k = s.sockets.length then some {} else none := by
    intro k
    unfold State.open_socket
    dsimp only
    rw [List.getElem?_append]
    split
    · rfl
    · rename_i hlt
      by_cases hk : k = s.sockets.length
      · simp [hk]
      · rw [if_neg hk]
        exact List.getElem?_eq_none (by simp only [List.length_singleton]; omega)
  refine ⟨rfl, ?_, ?_, ?_, ?_⟩
  · unfold State.open_socket
    simp
  · intro k hk
    unfold State.secured at *
    rw [hget]
    split_ifs with hlt
    · exact hk
    · simp [List.getElem?_eq_none (Nat.not_lt.mp hlt)] at hk
    · simp [List.getElem?_eq_none (Nat.not_lt.mp hlt)] at hk
  · intro k hk
    unfold State.authenticated at *
    rw [hget] at hk
    split_ifs at hk with hlt heq
    · exact hk
    · simp at hk
    · simp at hk
  · intro k hlt hk
    unfold State.live at *
    rwa [hget, if_pos hlt] at hk

theorem calm_ensure_connected (access_token : String) :
    Calm s (s.ensure_connected access_token) := by
  unfold State.ensure_connected
  dsimp only
  split
  · exact calm_of_eq rfl rfl
  · split
    · exact calm_of_eq rfl rfl
    · apply Calm.trans _ calm_open_socket
      exact calm_of_eq rfl rfl

theorem calm_handle_frame (frame : ParsedWireFrame) : Calm s (s.handle_frame frame) := by
  unfold State.handle_frame
  split
  · exact calm_of_eq rfl rfl
  · split
    · apply Calm.trans _ calm_destroy_live
      exact calm_of_eq rfl rfl
    · exact Calm.refl s

theorem calm_handle_incoming_bytes (chunk : Bytes) : Calm s (s.handle_incoming_bytes chunk) := by
  have hframes : ∀ (frames : List ParsedWireFrame) (t : State),
      Calm t (frames.foldl State.handle_frame t) := by
    intro frames
    induction frames with
    | nil => exact Calm.refl
    | cons frame frames ih => exact fun t => (calm_handle_frame frame).trans (ih _)
  apply Calm.trans _ (hframes _ _)
  exact calm_of_eq rfl rfl

theorem calm_auth_written (ok : Bool) : Calm s (s.auth_written k ok) := by
  have hanswered : Calm s (s.update k fun socket => { socket with auth := .answered }) :=
    calm_update (fun _ => rfl) fun _ h => h
  apply hanswered.trans
  unfold State.auth_written
  cases ok with
  | true =>
    apply Calm.trans _ calm_settle
    exact calm_of_eq rfl rfl
  | false => exact calm_destroy.trans calm_settle

theorem calm_error (message : String) : Calm s (s.error k message) := by
  apply Calm.trans _ calm_settle
  exact calm_of_eq rfl rfl

theorem calm_schedule_reconnect : Calm s s.schedule_reconnect := by
  unfold State.schedule_reconnect
  split
  · exact Calm.refl s
  · exact calm_of_eq rfl rfl

theorem calm_close : Calm s (s.close k) := by
  have hclosed :
      Calm s (s.update k fun socket => { socket with closed := true, destroyed := true }) :=
    calm_update (fun _ => rfl) fun _ _ => rfl
  apply hclosed.trans
  unfold State.close
  dsimp only
  split
  · exact calm_of_eq rfl rfl
  · apply Calm.trans _ calm_settle
    apply Calm.trans _ calm_schedule_reconnect
    exact calm_of_eq rfl rfl

theorem calm_disconnect : Calm s s.disconnect := by
  apply calm_destroy_live.trans
  exact calm_of_eq rfl rfl

end Calm

/-- What a step does to the sockets and to the current one. -/
inductive Turn (s : State) : Label → State → Prop
  | calm {a : Label} {s' : State} (h : Calm s s') (hsocket : s'.socket = s.socket) : Turn s a s'
  | released {a : Label} {s' : State} (h : Calm s s') (hsocket : s'.socket = none)
    (hdead : ∀ k, s.socket = some k → s'.authenticated k = false) : Turn s a s'
  | closed {k : Nat} : Turn s (.close k) (s.close k)
  | secured {k : Nat} (hnew : s.secured k = false) (hk : k < s.sockets.length) :
    Turn s (.secure_connect k) (s.secure_connect k)
  | writes {a : Label} {t : State} {k : Nat} {params : FrameParams}
    (hwritten : t.written = s.written) (hsocket : t.socket = s.socket)
    (hsockets : t.sockets = s.sockets) (hlive : t.live_socket = some k)
    (htype : params.msg_type ≠ WireMessageType.AUTH) :
    Turn s a (t.write_bytes k params)

section Turns

variable {s s' : State} {k : Nat}

theorem socket_ensure_connected (access_token : String) :
    (s.ensure_connected access_token).socket = s.socket := by
  unfold State.ensure_connected
  dsimp only
  split
  · rfl
  · split <;> rfl

theorem socket_destroy_live : s.destroy_live.socket = s.socket := by
  unfold State.destroy_live
  split <;> rfl

theorem socket_handle_frame (frame : ParsedWireFrame) :
    (s.handle_frame frame).socket = s.socket := by
  unfold State.handle_frame
  split
  · rfl
  · split
    · exact socket_destroy_live
    · rfl

theorem socket_handle_incoming_bytes (chunk : Bytes) :
    (s.handle_incoming_bytes chunk).socket = s.socket := by
  have hframes : ∀ (frames : List ParsedWireFrame) (t : State),
      (frames.foldl State.handle_frame t).socket = t.socket := by
    intro frames
    induction frames with
    | nil => exact fun _ => rfl
    | cons frame frames ih => exact fun t => (ih _).trans (socket_handle_frame frame)
  exact hframes _ _

theorem live_socket_eq_some :
    s.live_socket = some k ↔ s.socket = some k ∧ s.live k = true := by
  unfold State.live_socket
  exact Option.filter_eq_some_iff

/-- The socket that is let go is not signed in any more. -/
theorem released_disconnect (h : s.socket = some k) : s.disconnect.authenticated k = false := by
  have hsockets : s.disconnect.sockets = s.destroy_live.sockets := rfl
  by_cases hlive : s.live k = true
  · have hcurrent : s.live_socket = some k := live_socket_eq_some.mpr ⟨h, hlive⟩
    have hdestroy : s.destroy_live = s.destroy k := by
      unfold State.destroy_live
      rw [hcurrent]
    unfold State.authenticated
    rw [hsockets, hdestroy, State.destroy, get_update]
    cases s.sockets[k]? <;> simp
  · by_contra hauth
    have hold := calm_disconnect.authenticated k (by simpa using hauth)
    apply hlive
    unfold State.live
    unfold State.authenticated at hold
    cases hget : s.sockets[k]? with
    | none => simp [hget] at hold
    | some x =>
      simp [hget] at hold
      simp [hold.2]

theorem disconnect_idle : State.disconnect { s with idle_timer := false } = s.disconnect := by
  have hlive : State.live_socket { s with idle_timer := false } = s.live_socket := rfl
  unfold State.disconnect State.destroy_live
  rw [hlive]
  cases s.live_socket <;> rfl

theorem socket_close : (s.close k).socket = none := by
  unfold State.close State.schedule_reconnect
  dsimp only
  split
  · rfl
  · unfold State.settle State.update
    dsimp only
    split <;> rfl

theorem turn_disconnect {a : Label} : Turn s a s.disconnect :=
  .released calm_disconnect rfl fun _ h => released_disconnect h

theorem turn_of_step {a : Label} (h : step s a = some s') : Turn s a s' := by
  cases a with
  | ensure_connected access_token =>
    obtain rfl := Option.some.inj h
    refine .calm ?_ (socket_ensure_connected access_token)
    apply (calm_ensure_connected access_token).trans
    exact calm_of_eq rfl rfl
  | send_message recipient_id content =>
    obtain rfl := Option.some.inj h
    refine .calm ?_ (socket_ensure_connected s.access_token)
    apply (calm_ensure_connected s.access_token).trans
    exact calm_of_eq rfl rfl
  | disconnect =>
    obtain rfl := Option.some.inj h
    exact turn_disconnect
  | subscribe =>
    obtain rfl := Option.some.inj h
    exact .calm (calm_of_eq rfl rfl) rfl
  | unsubscribe =>
    obtain ⟨_, hs⟩ := Option.ite_none_left_eq_some.mp h
    obtain rfl := Option.some.inj hs
    exact .calm (calm_of_eq rfl rfl) rfl
  | connect_ends =>
    unfold step at h
    dsimp only at h
    split at h
    · cases h
    · split at h
      · obtain rfl := Option.some.inj h
        exact .calm (calm_of_eq rfl rfl) rfl
      · cases h
  | send_goes_on n =>
    unfold step at h
    dsimp only at h
    split at h
    · cases h
    · split at h
      · obtain rfl := Option.some.inj h
        exact .calm (calm_of_eq rfl rfl) rfl
      · rename_i hlive
        obtain rfl := Option.some.inj h
        have hchat : WireMessageType.CHAT ≠ WireMessageType.AUTH := by decide
        exact .writes rfl rfl rfl hlive hchat
  | breaks k =>
    obtain rfl := Option.some.inj h
    exact .calm calm_destroy rfl
  | secure_connect k =>
    obtain ⟨hnew, hs⟩ := Option.ite_none_right_eq_some.mp h
    obtain rfl := Option.some.inj hs
    cases hget : s.sockets[k]? with
    | none => simp [hget] at hnew
    | some x =>
      simp [hget] at hnew
      refine .secured ?_ (List.getElem?_eq_some_iff.mp hget).1
      unfold State.secured
      simp [hget, hnew.1]
  | auth_written k ok =>
    unfold step at h
    dsimp only at h
    split at h
    · obtain rfl := Option.some.inj h
      refine .calm (calm_auth_written ok) ?_
      cases ok <;> rfl
    · split at h
      · cases h
      · obtain rfl := Option.some.inj h
        exact .calm (calm_auth_written false) rfl
    · cases h
  | data k chunk =>
    obtain ⟨_, hs⟩ := Option.ite_none_right_eq_some.mp h
    obtain rfl := Option.some.inj hs
    exact .calm (calm_handle_incoming_bytes chunk) (socket_handle_incoming_bytes chunk)
  | error k message =>
    obtain ⟨_, hs⟩ := Option.ite_none_right_eq_some.mp h
    obtain rfl := Option.some.inj hs
    exact .calm (calm_error message) rfl
  | close k =>
    obtain ⟨_, hs⟩ := Option.ite_none_right_eq_some.mp h
    obtain rfl := Option.some.inj hs
    exact .closed
  | heartbeat =>
    obtain ⟨_, hs⟩ := Option.ite_none_right_eq_some.mp h
    split at hs
    · obtain rfl := Option.some.inj hs
      exact .calm (Calm.refl s) rfl
    · rename_i hlive
      obtain rfl := Option.some.inj hs
      exact .writes rfl rfl rfl hlive (by decide)
  | reconnect =>
    obtain ⟨_, hs⟩ := Option.ite_none_right_eq_some.mp h
    split at hs
    · obtain rfl := Option.some.inj hs
      exact .calm (calm_of_eq rfl rfl) rfl
    · obtain rfl := Option.some.inj hs
      refine .calm ?_ (socket_ensure_connected _)
      apply Calm.trans _ (calm_ensure_connected _)
      exact calm_of_eq rfl rfl
  | idle =>
    obtain ⟨_, hs⟩ := Option.ite_none_right_eq_some.mp h
    dsimp only at hs
    split at hs
    · obtain rfl := Option.some.inj hs
      exact .calm (calm_of_eq rfl rfl) rfl
    · obtain rfl := Option.some.inj hs
      rw [disconnect_idle]
      exact turn_disconnect

end Turns

/-! ## The first frame -/

/-- What has been written on the sockets. A current socket that lives has its AUTH frame. -/
structure Greeted (s : State) : Prop where
  first : ∀ k, AuthFirst (s.frames k)
  fresh : ∀ k, s.secured k = false → s.frames k = []
  current : ∀ k, s.socket = some k → s.live k = true → s.frames k ≠ []
  known : ∀ k, s.socket = some k → k < s.sockets.length

section Frames

variable {s s' : State} {k : Nat}

theorem frames_of_written (h : s'.written = s.written) (j : Nat) : s'.frames j = s.frames j := by
  unfold State.frames
  rw [h]

theorem frames_append {params : FrameParams} (h : s'.written = s.written ++ [(k, params)])
    (j : Nat) : s'.frames j = s.frames j ++ if k = j then [params] else [] := by
  unfold State.frames
  rw [h, List.filter_append, List.map_append]
  by_cases hkj : k = j <;> simp [hkj]

theorem auth_first_append {frames : List FrameParams} {params : FrameParams}
    (h : AuthFirst frames) (hne : frames ≠ [])
    (htype : params.msg_type ≠ WireMessageType.AUTH) : AuthFirst (frames ++ [params]) := by
  obtain ⟨f, fs, rfl⟩ := List.exists_cons_of_ne_nil hne
  obtain ⟨hf, hfs⟩ := h f fs rfl
  intro f' fs' heq
  obtain ⟨rfl, rfl⟩ := List.cons.inj heq
  refine ⟨hf, fun g hg => ?_⟩
  rcases List.mem_append.mp hg with hg | hg
  · exact hfs g hg
  · exact List.mem_singleton.mp hg ▸ htype

theorem Greeted.calm (h : Greeted s) (hc : Calm s s')
    (hsocket : s'.socket = s.socket ∨ s'.socket = none) : Greeted s' := by
  have hsame : ∀ k, s'.socket = some k → s.socket = some k := by
    intro k hk
    rcases hsocket with hsocket | hsocket
    · exact hsocket ▸ hk
    · rw [hsocket] at hk
      cases hk
  refine ⟨?_, ?_, ?_, ?_⟩
  · intro k
    rw [frames_of_written hc.written]
    exact h.first k
  · intro k hk
    rw [frames_of_written hc.written]
    apply h.fresh
    by_contra hsecured
    rw [hc.secured k (by simpa using hsecured)] at hk
    cases hk
  · intro k hk hlive
    rw [frames_of_written hc.written]
    exact h.current k (hsame k hk) (hc.live k (h.known k (hsame k hk)) hlive)
  · intro k hk
    exact Nat.lt_of_lt_of_le (h.known k (hsame k hk)) hc.length

/-- The handshake of one socket ends. The others are as they were. -/
theorem get_secure_connect : ∃ auth, ∀ j, (s.secure_connect k).sockets[j]? =
    (s.sockets[j]?).map fun x => if k = j then { x with secured := true, auth := auth } else x := by
  unfold State.secure_connect
  dsimp only
  split
  · exact ⟨.written, fun j => get_update _ j⟩
  · exact ⟨.thrown, fun j => get_update _ j⟩

theorem secured_secure_connect {j : Nat} (h : (s.secure_connect k).secured j = false) :
    s.secured j = false ∧ (k < s.sockets.length → j ≠ k) := by
  obtain ⟨auth, hget⟩ := get_secure_connect (s := s) (k := k)
  unfold State.secured at *
  rw [hget] at h
  refine ⟨?_, ?_⟩
  · by_cases hkj : k = j
    · cases hj : s.sockets[j]? <;> simp [hj, hkj] at h ⊢
    · simpa [hkj] using h
  · rintro hlt rfl
    simp [hlt] at h

theorem live_secure_connect (j : Nat) : (s.secure_connect k).live j = s.live j := by
  obtain ⟨auth, hget⟩ := get_secure_connect (s := s) (k := k)
  unfold State.live
  rw [hget]
  cases s.sockets[j]? with
  | none => rfl
  | some x => by_cases hkj : k = j <;> simp [hkj]

theorem authenticated_secure_connect {j : Nat} (h : j ≠ k) :
    (s.secure_connect k).authenticated j = s.authenticated j := by
  obtain ⟨auth, hget⟩ := get_secure_connect (s := s) (k := k)
  unfold State.authenticated
  rw [hget]
  simp [Ne.symm h]

theorem length_secure_connect : (s.secure_connect k).sockets.length = s.sockets.length := by
  unfold State.secure_connect State.write_bytes State.update
  dsimp only
  split <;> exact List.length_modify _ _ _

theorem socket_secure_connect : (s.secure_connect k).socket = some k := by
  unfold State.secure_connect
  dsimp only
  split <;> rfl

theorem Greeted.secured (h : Greeted s) (hnew : s.secured k = false) (hk : k < s.sockets.length) :
    Greeted (s.secure_connect k) := by
  have hnil := h.fresh k hnew
  have hknown : ∀ j, (s.secure_connect k).socket = some j →
      j < (s.secure_connect k).sockets.length := by
    intro j hj
    obtain rfl := Option.some.inj (socket_secure_connect.symm.trans hj)
    rwa [length_secure_connect]
  by_cases hlive : s.live k = true
  · obtain ⟨params, hauth, hwritten⟩ := written_secure_connect hlive
    refine ⟨?_, ?_, ?_, hknown⟩
    · intro j f fs hframes
      rw [frames_append hwritten] at hframes
      by_cases hkj : k = j
      · subst hkj
        rw [hnil, if_pos rfl] at hframes
        obtain ⟨rfl, rfl⟩ := List.cons.inj hframes
        exact ⟨hauth, fun g hg => absurd hg List.not_mem_nil⟩
      · rw [if_neg hkj, List.append_nil] at hframes
        exact h.first j f fs hframes
    · intro j hj
      obtain ⟨hold, hne⟩ := secured_secure_connect hj
      rw [frames_append hwritten, if_neg (Ne.symm (hne hk)), List.append_nil]
      exact h.fresh j hold
    · intro j hj _
      obtain rfl := Option.some.inj (socket_secure_connect.symm.trans hj)
      rw [frames_append hwritten, if_pos rfl]
      exact List.append_ne_nil_of_right_ne_nil _ (List.cons_ne_nil _ _)
  · have hwritten : (s.secure_connect k).written = s.written := by
      unfold State.secure_connect
      dsimp only
      rw [if_neg hlive]
      rfl
    refine ⟨?_, ?_, ?_, hknown⟩
    · intro j
      rw [frames_of_written hwritten]
      exact h.first j
    · intro j hj
      rw [frames_of_written hwritten]
      exact h.fresh j (secured_secure_connect hj).1
    · intro j hj hlives
      obtain rfl := Option.some.inj (socket_secure_connect.symm.trans hj)
      rw [live_secure_connect] at hlives
      exact absurd hlives hlive

theorem greeted_step {a : Label} (h : Greeted s) (hs : step s a = some s') : Greeted s' := by
  cases turn_of_step hs with
  | calm hcalm hsocket => exact h.calm hcalm (.inl hsocket)
  | released hcalm hsocket _ => exact h.calm hcalm (.inr hsocket)
  | closed => exact h.calm calm_close (.inr socket_close)
  | secured hnew hk => exact h.secured hnew hk
  | @writes _ t k params hwritten hsocket hsockets hlive htype =>
    obtain ⟨hcurrent, hlives⟩ := live_socket_eq_some.mp hlive
    have ht : Greeted t := h.calm (calm_of_eq hwritten hsockets) (.inl hsocket)
    have hne := ht.current k hcurrent hlives
    have hframes (j : Nat) : (t.write_bytes k params).frames j =
        t.frames j ++ if k = j then [params] else [] := frames_append rfl j
    refine ⟨?_, ?_, ?_, ht.known⟩
    · intro j
      rw [hframes]
      split
      · rename_i hkj
        subst hkj
        exact auth_first_append (ht.first k) hne htype
      · rw [List.append_nil]
        exact ht.first j
    · intro j hj
      have hnil := ht.fresh j hj
      rw [hframes, if_neg, List.append_nil, hnil]
      rintro rfl
      exact hne hnil
    · intro j hj hlive
      rw [hframes]
      exact List.append_ne_nil_of_left_ne_nil (ht.current j hj hlive) _

end Frames

/-- In every run the first frame on each socket is the AUTH frame, and there is no other. -/
theorem each_socket_is_greeted_first {as : List Label} {s : State} (hr : gateway.run as = some s)
    (k : Nat) : AuthFirst (s.frames k) := by
  have hgreeted : Greeted s :=
    Machine.invariant (I := Greeted) ⟨fun _ _ _ h => (by cases h), fun _ _ => rfl,
      fun _ h => (by cases h), fun _ h => (by cases h)⟩ (fun _ _ _ => greeted_step) hr
  exact hgreeted.first k

/-! ## One current socket -/

section Current

variable {s s' : State} {k : Nat}

/-- The socket that closes is destroyed. The others are as they were. -/
theorem get_close : ∃ f : Socket → Socket, (∀ x, (f x).destroyed = true) ∧
    ∀ j, (s.close k).sockets[j]? = (s.sockets[j]?).map fun x => if k = j then f x else x := by
  unfold State.close
  dsimp only
  split
  · exact ⟨fun x => { x with closed := true, destroyed := true }, fun _ => rfl,
      fun j => get_update _ j⟩
  · refine ⟨fun x => { x with closed := true, destroyed := true, settled := true }, fun _ => rfl,
      fun j => ?_⟩
    have hsockets : ∀ t : State, t.schedule_reconnect.sockets = t.sockets := by
      intro t
      unfold State.schedule_reconnect
      split <;> rfl
    rw [State.settle, get_update, hsockets]
    dsimp only
    rw [get_update, Option.map_map]
    congr 1
    funext x
    by_cases hkj : k = j <;> simp [hkj]

theorem authenticated_close_self : (s.close k).authenticated k = false := by
  obtain ⟨f, hdestroyed, hget⟩ := get_close (s := s) (k := k)
  unfold State.authenticated
  rw [hget]
  cases s.sockets[k]? <;> simp [hdestroyed]

theorem authenticated_close_ne {j : Nat} (h : j ≠ k) :
    (s.close k).authenticated j = s.authenticated j := by
  obtain ⟨f, _, hget⟩ := get_close (s := s) (k := k)
  unfold State.authenticated
  rw [hget]
  simp [Ne.symm h]

theorem one_current_step {a : Label} (h : OneCurrent s) (hok : NoOther s a)
    (hs : step s a = some s') : OneCurrent s' := by
  cases turn_of_step hs with
  | calm hcalm hsocket =>
    intro k hk
    rw [hsocket]
    exact h k (hcalm.authenticated k hk)
  | released hcalm _ hdead =>
    intro k hk
    rw [hdead k (h k (hcalm.authenticated k hk))] at hk
    cases hk
  | @closed k =>
    intro j hj
    by_cases hjk : j = k
    · rw [hjk, authenticated_close_self] at hj
      cases hj
    · rw [authenticated_close_ne hjk] at hj
      rw [hok j (h j hj) hjk] at hj
      cases hj
  | @secured k _ _ =>
    intro j hj
    by_cases hjk : j = k
    · rw [hjk]
      exact socket_secure_connect
    · rw [authenticated_secure_connect hjk] at hj
      rw [hok j (h j hj) hjk] at hj
      cases hj
  | @writes _ t _ _ _ hsocket hsockets _ _ =>
    intro k hk
    have hauth : t.authenticated k = true := hk
    unfold State.authenticated at hauth
    rw [hsockets] at hauth
    exact hsocket.trans (h k hauth)

/-- The steps that are excluded leave a socket signed in that is not the current one. -/
theorem no_other_of_step {a : Label} (hs : step s a = some s') (hafter : OneCurrent s') :
    NoOther s a := by
  cases a with
  | close k =>
    obtain ⟨_, hs⟩ := Option.ite_none_right_eq_some.mp hs
    obtain rfl := Option.some.inj hs
    intro j _ hjk
    by_contra hauth
    have hj := hafter j ((authenticated_close_ne hjk).trans (by simpa using hauth))
    rw [socket_close] at hj
    cases hj
  | secure_connect k =>
    obtain ⟨_, hs⟩ := Option.ite_none_right_eq_some.mp hs
    obtain rfl := Option.some.inj hs
    intro j _ hjk
    by_contra hauth
    have hj := hafter j ((authenticated_secure_connect hjk).trans (by simpa using hauth))
    rw [socket_secure_connect] at hj
    exact hjk (Option.some.inj hj).symm
  | _ => trivial

end Current

/-- In all states of a run whoever is signed in is the current socket, so there is one at most,
exactly when no step closes or secures a socket beside another one that is current. -/
theorem the_current_socket_is_alone_iff_no_other_ends {as : List Label} {s : State}
    (hr : gateway.run as = some s) :
    (∀ bs t, bs <+: as → gateway.run bs = some t → OneCurrent t) ↔ gateway.Meets NoOther as :=
  Machine.always_iff_meets (fun _ h => (by cases h))
    (fun _ _ _ h hok hs => one_current_step h hok hs) (fun _ h => h)
    (fun _ _ _ _ hs hafter => no_other_of_step hs hafter) hr

/-- A session that ends, and the next one. -/
def two_sessions : List Label :=
  [.ensure_connected "token", .secure_connect 0, .auth_written 0 true, .connect_ends, .heartbeat,
    .breaks 0, .close 0, .ensure_connected "token", .secure_connect 1, .auth_written 1 true]

theorem each_session_is_greeted :
    ∃ s, gateway.run two_sessions = some s ∧ AuthFirst (s.frames 0) ∧ AuthFirst (s.frames 1) := by
  obtain ⟨s, hr⟩ : ∃ s, gateway.run two_sessions = some s := ⟨_, rfl⟩
  exact ⟨s, hr, each_socket_is_greeted_first hr 0, each_socket_is_greeted_first hr 1⟩

theorem two_sessions_are_apart :
    ∃ s, gateway.run two_sessions = some s ∧
      ∀ bs t, bs <+: two_sessions → gateway.run bs = some t → OneCurrent t := by
  obtain ⟨s, hr⟩ : ∃ s, gateway.run two_sessions = some s := ⟨_, rfl⟩
  exact ⟨s, hr, (the_current_socket_is_alone_iff_no_other_ends hr).mpr (by decide)⟩

end loomic.chat_gateway
