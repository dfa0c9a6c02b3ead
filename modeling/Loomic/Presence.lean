-- Presence: for which runs a user whose session the registry names is online
-- while the session is in its message loop.
import Loomic.Connections

open loomic.cleanup loomic.connections loomic.frame loomic.json loomic.server
open loomic.session_registry loomic.session_run machines

namespace loomic.presence

/-- The session has registered its user and flushed his queue, and has not left the loop. -/
def in_loop : AnyRun → Bool
  | .tcp r => match r.await with
    | .auth_header | .auth_payload _ | .auth_error | .set_presence | .ack | .flush_offline_queue
    | .del_presence | .set_last_seen | .done => false
    | _ => true
  | .ws r => r.await = .text ∨ r.await = .route

/-- The session waits for the reply to the flush. -/
def flushing : AnyRun → Bool
  | .tcp r => r.await = .flush_offline_queue
  | .ws r => r.await = .flush_offline_queue

/-- The session has read a PING, and the `EXPIRE` is under way. -/
def refreshing : AnyRun → Bool
  | .tcp r => r.await = .refresh_presence
  | .ws _ => false

def deleting : AnyRun → Bool
  | .tcp r => r.await = .del_presence
  | .ws r => r.await = .del_presence

/-- A user whose session the registry names is online while it is in its loop. -/
def Present (w : Connections) : Prop :=
  ∀ u i, w.lookup u = some i → ∀ run ∈ w.run i, in_loop run → w.online u

/-- The registry names a session of the user that is in its loop. -/
def Named (w : Connections) (user_id : UserId) : Prop :=
  ∃ i ∈ w.lookup user_id, ∃ run ∈ w.run i, in_loop run

/-- Another session of the user is cleaned up, and its `DEL` takes effect. -/
def Deletes (w : Connections) (i : Nat) (ev : AnyEvent) : Prop :=
  is_reply ev ∧ ∃ run ∈ w.run i, deleting run ∧ Named w run.user_id

/-- The session that the registry names goes into its loop when its key is gone already. -/
def EntersOffline (w : Connections) (i : Nat) (ev : AnyEvent) : Prop :=
  ∃ run ∈ w.run i, flushing run ∧ (∃ batch ∈ ev.batch, ∀ e ∈ batch, run.takes e) ∧
    w.lookup run.user_id = some i ∧ w.online run.user_id = false

/-- A minute has passed since the last `SETEX` or `EXPIRE` for a user whose session the
registry names and is in its loop. -/
def Expires (w : Connections) (ms : Nat) : Prop :=
  ∃ i < w.conns.length, ∃ run ∈ w.run i, in_loop run ∧
    w.lookup run.user_id = some i ∧ w.presence.renewed run.user_id + ttl ≤ w.now + ms

/-- None of them happens. -/
def KeepsPresence (w : Connections) : Label → Prop
  | .resume i ev => ¬ Deletes w i ev ∧ ¬ EntersOffline w i ev
  | .tick ms => ¬ Expires w ms
  | _ => True

instance (w : Connections) (user_id : UserId) : Decidable (Named w user_id) := by
  unfold Named
  infer_instance

instance (w : Connections) (i : Nat) (ev : AnyEvent) : Decidable (Deletes w i ev) := by
  unfold Deletes
  infer_instance

instance (w : Connections) (i : Nat) (ev : AnyEvent) : Decidable (EntersOffline w i ev) := by
  unfold EntersOffline
  infer_instance

instance (w : Connections) (ms : Nat) : Decidable (Expires w ms) := by
  unfold Expires
  infer_instance

instance (w : Connections) : (a : Label) → Decidable (KeepsPresence w a)
  | .resume i ev => inferInstanceAs (Decidable (¬ Deletes w i ev ∧ ¬ EntersOffline w i ev))
  | .tick ms => inferInstanceAs (Decidable (¬ Expires w ms))
  | .accept | .handshake _ _ | .upgrade | .destroy _ => isTrue trivial

/-! ## The commands that a session waits for -/

section Commands

variable {now : Nat} {run : AnyRun} {p : Presence}

theorem command_registering (h : registering run) :
    command now run p = p.set_presence now run.user_id := by
  cases run with
  | tcp r =>
    have hawait : r.await = .set_presence := by simpa [registering] using h
    simp [command, hawait, AnyRun.user_id]
  | ws r =>
    have hawait : r.await = .set_presence := by simpa [registering] using h
    simp [command, hawait, AnyRun.user_id]

theorem command_refreshing (h : refreshing run) :
    command now run p = p.refresh_presence now run.user_id := by
  cases run with
  | tcp r =>
    have hawait : r.await = .refresh_presence := by simpa [refreshing] using h
    simp [command, hawait, AnyRun.user_id]
  | ws r => cases h

theorem command_deleting (h : deleting run) : command now run p = p.del_presence run.user_id := by
  cases run with
  | tcp r =>
    have hawait : r.await = .del_presence := by simpa [deleting] using h
    simp [command, hawait, AnyRun.user_id]
  | ws r =>
    have hawait : r.await = .del_presence := by simpa [deleting] using h
    simp [command, hawait, AnyRun.user_id]

/-- The other waits are not for a command on the presence key. -/
theorem command_other (h : registering run = false) (h' : refreshing run = false)
    (h'' : deleting run = false) : command now run p = p := by
  cases run with
  | tcp r =>
    simp only [registering, refreshing, deleting, decide_eq_false_iff_not] at h h' h''
    simp only [command]
  | ws r =>
    simp only [registering, deleting, decide_eq_false_iff_not] at h h''
    simp only [command]

theorem phase_deleting (h : deleting run) : phase run = .del_presence := by
  cases run with
  | tcp r =>
    have hawait : r.await = .del_presence := by simpa [deleting] using h
    rw [phase, hawait]
    rfl
  | ws r =>
    have hawait : r.await = .del_presence := by simpa [deleting] using h
    rw [phase, hawait]
    rfl

end Commands

/-! ## The loop of a session -/

section Resumptions

variable {verify : Bytes → Option UserId} {r : Run Session.Await} {ev : Session.Event Stored}
  {seg : Segment Stored Session.Await}

theorem tcp_raise_await : (Session.raise r : Segment Stored Session.Await).1.await = .del_presence ∨
    (Session.raise r : Segment Stored Session.Await).1.await = .done := by
  unfold Session.raise Run.cleanup
  split
  · exact .inr rfl
  · exact .inl rfl

theorem tcp_authenticate_await {token : Bytes} : in_loop
    (.tcp (Session.authenticate r verify token : Segment Stored Session.Await).1) = false := by
  unfold Session.authenticate
  split <;> rfl

/-- A session goes into its loop with the reply to the flush. -/
theorem tcp_enters (h : Session.resume r verify ev = some seg) (hloop : in_loop (.tcp seg.1))
    (hout : in_loop (.tcp r) = false) :
    r.await = .flush_offline_queue ∧ ∃ batch, ev = .frames batch := by
  unfold Session.resume at h
  split at h <;> rename_i hawait
  case h_6 => exact ⟨hawait, _, rfl⟩
  case h_18 =>
    split at h <;> cases h
    rcases tcp_raise_await (r := r) with hr | hr <;> simp [in_loop, hr] at hloop
  case h_19 => cases h
  case h_1 =>
    split_ifs at h <;> cases h
    · cases hloop
    · simp [tcp_authenticate_await] at hloop
    · cases hloop
  case h_2 =>
    split_ifs at h
    cases h
    simp [tcp_authenticate_await] at hloop
  all_goals
    first
    | simp [in_loop, hawait] at hout; done
    | cases h; cases hloop

end Resumptions

section WsResumptions

variable {verify : Bytes → Option UserId} {takes : Stored → Bool} {r : Run WebSocketSession.Await}
  {ev : WebSocketSession.Event Stored} {seg : Segment Stored WebSocketSession.Await}

theorem ws_raise_await :
    in_loop (.ws (WebSocketSession.raise r : Segment Stored WebSocketSession.Await).1) = false := by
  unfold WebSocketSession.raise Run.cleanup
  split <;> rfl

theorem ws_authenticate_await {auth_j : Json} : in_loop
    (.ws (WebSocketSession.authenticate r verify auth_j :
      Segment Stored WebSocketSession.Await).1) = false := by
  unfold WebSocketSession.authenticate
  split
  · exact ws_raise_await
  · split_ifs
    · rfl
    · split
      · exact ws_raise_await
      · split <;> rfl

theorem ws_enters (h : WebSocketSession.resume r verify takes ev = some seg)
    (hloop : in_loop (.ws seg.1)) (hout : in_loop (.ws r) = false) :
    r.await = .flush_offline_queue ∧ ∃ batch, ev = .frames batch ∧ batch.all takes := by
  unfold WebSocketSession.resume at h
  split at h <;> rename_i hawait
  case h_6 =>
    refine ⟨hawait, _, rfl, ?_⟩
    cases h
    by_contra hno
    unfold WebSocketSession.flush at hloop
    rw [if_neg hno] at hloop
    have hraise := ws_raise_await (r := r)
    exact absurd (hloop.symm.trans hraise) (by decide)
  case h_3 =>
    cases h
    simp [ws_authenticate_await] at hloop
  case h_13 =>
    split_ifs at h
    cases h
    simp [ws_raise_await] at hloop
  all_goals
    first
    | simp [in_loop, hawait] at hout; done
    | cases h; cases hloop
    | cases h

end WsResumptions

section AnyResumptions

variable {verify : Bytes → Option UserId} {run run' : AnyRun} {ev : AnyEvent}
  {es : List (Effect Stored)}

theorem enters_loop (h : run.resume verify ev = some (run', es)) (hloop : in_loop run')
    (hout : in_loop run = false) :
    flushing run ∧ ∃ batch ∈ ev.batch, ∀ e ∈ batch, run.takes e := by
  unfold AnyRun.resume at h
  split at h
  · obtain ⟨seg, hseg, hr⟩ := Option.map_eq_some_iff.mp h
    cases hr
    obtain ⟨hawait, batch, rfl⟩ := tcp_enters hseg hloop hout
    exact ⟨by simpa [flushing] using hawait, batch, rfl, fun e _ => by cases e <;> rfl⟩
  · obtain ⟨seg, hseg, hr⟩ := Option.map_eq_some_iff.mp h
    cases hr
    obtain ⟨hawait, batch, rfl, htakes⟩ := ws_enters hseg hloop hout
    exact ⟨by simpa [flushing] using hawait, batch, rfl, List.all_eq_true.mp htakes⟩
  · cases h

theorem phase_in_loop (h : in_loop run) : phase run = .live := by
  cases run with
  | tcp r =>
    rcases r with ⟨await, user_id⟩
    cases await <;> first | rfl | cases h
  | ws r =>
    rcases r with ⟨await, user_id⟩
    cases await <;> first | rfl | cases h

theorem registering_in_loop (h : in_loop run) : registering run = false := by
  cases run with
  | tcp r =>
    rcases r with ⟨await, user_id⟩
    cases await <;> first | rfl | cases h
  | ws r =>
    rcases r with ⟨await, user_id⟩
    cases await <;> first | rfl | cases h

theorem phase_flushing (h : flushing run) : phase run = .live := by
  cases run with
  | tcp r =>
    have hawait : r.await = .flush_offline_queue := by simpa [flushing] using h
    rw [phase, hawait]
    rfl
  | ws r =>
    have hawait : r.await = .flush_offline_queue := by simpa [flushing] using h
    rw [phase, hawait]
    rfl

end AnyResumptions

/-! ## Keys that last -/

section Keys

variable {p : Presence} {now : Nat} {u v : UserId} {run : AnyRun}

theorem online_iff : p.online now u ↔ ∃ e, p.expires u = some e ∧ now < e := by
  unfold Presence.online
  cases p.expires u <;> simp

theorem online_set (h : p.online now u) : (p.set_presence now v).online now u := by
  by_cases hv : u = v
  · subst hv
    refine online_iff.mpr ⟨now + ttl, by simp [Presence.set_presence], ?_⟩
    exact Nat.lt_add_of_pos_right (by decide)
  · obtain ⟨e, he, hnow⟩ := online_iff.mp h
    exact online_iff.mpr ⟨e, by simp [Presence.set_presence, hv, he], hnow⟩

/-- What the sessions do to the key of a user, when they do not delete it. -/
theorem online_command (h : p.online now u) (hdel : deleting run → u ≠ run.user_id) :
    (command now run p).online now u := by
  by_cases hset : registering run
  · rw [command_registering hset]
    exact online_set h
  · by_cases href : refreshing run
    · rw [command_refreshing href]
      unfold Presence.refresh_presence
      split
      · exact online_set h
      · exact h
    · by_cases hdelete : deleting run
      · rw [command_deleting hdelete]
        obtain ⟨e, he, hnow⟩ := online_iff.mp h
        exact online_iff.mpr ⟨e, by simp [Presence.del_presence, hdel hdelete, he], hnow⟩
      · rw [command_other (by simpa using hset) (by simpa using href) (by simpa using hdelete)]
        exact h

/-- A key expires a minute after it was given its minute. -/
def Minute (p : Presence) : Prop := ∀ u e, p.expires u = some e → e = p.renewed u + ttl

theorem minute_set (hp : Minute p) : Minute (p.set_presence now v) := by
  intro u e he
  unfold Presence.set_presence at he ⊢
  by_cases hu : u = v
  · subst hu
    simpa using he.symm
  · simp only [Function.update_of_ne hu] at he ⊢
    exact hp u e he

theorem minute_command (hp : Minute p) : Minute (command now run p) := by
  by_cases hset : registering run
  · rw [command_registering hset]
    exact minute_set hp
  · by_cases href : refreshing run
    · rw [command_refreshing href]
      unfold Presence.refresh_presence
      split
      · exact minute_set hp
      · exact hp
    · by_cases hdelete : deleting run
      · rw [command_deleting hdelete]
        intro u e he
        unfold Presence.del_presence at he
        by_cases hu : u = run.user_id
        · simp [hu] at he
        · simp only [Function.update_of_ne hu] at he
          exact hp u e he
      · rw [command_other (by simpa using hset) (by simpa using href) (by simpa using hdelete)]
        exact hp

end Keys

/-! ## What a run keeps -/

section Invariant

variable {verify : Bytes → Option UserId} {w w' : Connections} {i j : Nat} {u : UserId}
  {ev : AnyEvent}

/-- The registry holds a session under its own user only. -/
def Own (w : Connections) : Prop :=
  ∀ u i, w.registry.map u = some i → ∃ run ∈ w.run i, run.user_id = u ∧ phase run ≠ .auth

structure Inv (w : Connections) : Prop where
  sound : Sound w
  kept : Kept w
  own : Own w
  minute : Minute w.presence
  present : Present w

theorem inv_start : Inv (listeners verify).start := by
  refine ⟨sound_start, kept_start, ?_, ?_, ?_⟩
  · intro u i h
    cases h
  · intro u e he
    cases he
  · intro u i h
    cases h

theorem map_of_lookup (h : w.lookup u = some i) : w.registry.map u = some i :=
  (lookup_eq_some.mp h).1

/-- The session that the registry names for a user is his own. -/
theorem user_of_lookup {run : AnyRun} (hw : Own w) (hl : w.lookup u = some i)
    (hrun : w.run i = some run) : run.user_id = u := by
  obtain ⟨r, hr, hu, _⟩ := hw u i (map_of_lookup hl)
  obtain rfl : run = r := Option.some.inj (hrun.symm.trans hr)
  exact hu

/-! ### Connections that open, and sessions that are destroyed -/

theorem inv_open {stage : Stage} {n : Int} (hw : Inv w)
    (hs : Sound (w.open_connection stage n)) (hk : Kept (w.open_connection stage n)) :
    Inv (w.open_connection stage n) := by
  have hmap : ∀ {u i}, w.registry.map u = some i → i < w.conns.length := by
    intro u i h
    obtain ⟨run, hrun, _⟩ := hw.own u i h
    obtain ⟨c, hc, _⟩ := run_eq_some.mp hrun
    exact (List.getElem?_eq_some_iff.mp hc).1
  refine ⟨hs, hk, ?_, hw.minute, ?_⟩
  · intro u i h
    obtain ⟨run, hrun, hu⟩ := hw.own u i h
    exact ⟨run, (run_congr (getElem?_open (hmap h))).trans hrun, hu⟩
  · intro u i hl run hrun hloop
    obtain ⟨hm, halive⟩ := lookup_eq_some.mp hl
    rw [run_congr (getElem?_open (hmap hm))] at hrun
    rw [alive_congr (getElem?_open (hmap hm))] at halive
    exact hw.present u i (lookup_eq_some.mpr ⟨hm, halive⟩) run hrun hloop

/-- A change of one connection that leaves the rest alone, while the connection is not in a
loop after it. -/
theorem inv_idle {c : Connection} {f : Connection → Connection} (hw : Inv w)
    (hs : Sound w') (hk : Kept w') (hc : w.conns[i]? = some c)
    (hconns : w'.conns = w.conns.modify i f) (hreg : w'.registry = w.registry)
    (hpresence : w'.presence = w.presence) (hnow : w'.now = w.now)
    (hrun : ∀ u, w.registry.map u = some i → (f c).stage = c.stage)
    (hafter : ∀ run, (f c).stage = .running run → in_loop run = false) : Inv w' := by
  have hi : w'.conns[i]? = some (f c) := by
    rw [hconns, List.getElem?_modify_eq, hc]
    rfl
  refine ⟨hs, hk, ?_, hpresence ▸ hw.minute, ?_⟩
  · intro u j hm
    rw [hreg] at hm
    obtain ⟨run, hr, hu⟩ := hw.own u j hm
    by_cases hij : i = j
    · subst hij
      obtain ⟨d, hd, hstage⟩ := run_eq_some.mp hr
      obtain rfl : c = d := Option.some.inj (hc.symm.trans hd)
      exact ⟨run, run_eq_some.mpr ⟨_, hi, (hrun u hm).trans hstage⟩, hu⟩
    · exact ⟨run, (run_modify_ne hconns hij).trans hr, hu⟩
  · intro u j hl run hr hloop
    obtain ⟨d, hd, hstage⟩ := run_eq_some.mp hr
    by_cases hij : i = j
    · subst hij
      obtain rfl : f c = d := Option.some.inj (hi.symm.trans hd)
      simp [hafter run hstage] at hloop
    · obtain ⟨hm, hal⟩ := lookup_eq_some.mp hl
      have hsame : w'.conns[j]? = w.conns[j]? := by
        rw [hconns, List.getElem?_modify_ne _ _ hij]
      rw [hreg] at hm
      rw [alive_congr hsame] at hal
      unfold Connections.online
      rw [hpresence, hnow]
      exact hw.present u j (lookup_eq_some.mpr ⟨hm, hal⟩) run
        ((run_congr hsame).symm.trans hr) hloop

/-! ### Sessions that are resumed -/

section Resume

variable {run run' : AnyRun} {es : List (Effect Stored)}

theorem map_of_remove {reg : SessionRegistry Nat} {alive : Nat → Bool} {v : UserId}
    {s : Option Nat} (h : (reg.remove alive v s).map u = some j) : reg.map u = some j := by
  have hupdate : Function.update reg.map v none u = some j → reg.map u = some j := by
    intro h
    by_cases hu : u = v
    · simp [hu] at h
    · simpa [hu] using h
  unfold SessionRegistry.remove at h
  split at h
  · exact h
  · exact hupdate h
  · split at h
    · exact hupdate h
    · exact h

/-- Only a session that lets its user in puts itself into the registry. -/
theorem map_turn (ht : Turn run ev run' es)
    (h : (es.foldl (register w.alive i) w.registry).map u = some j) :
    (j = i ∧ u = run'.user_id ∧ phase run' = .live ∧ registering run') ∨
      w.registry.map u = some j := by
  have hneutral : (∀ e ∈ es, Neutral e) → w.registry.map u = some j := by
    intro hes
    rw [register_neutral hes] at h
    exact h
  cases ht with
  | enter h₁ h' hk hreg hev hnet hes =>
    rw [register_enter hes, map_insert] at h
    split at h
    · rename_i hu
      exact .inl ⟨(Option.some.inj h).symm, hu, h', hreg⟩
    · exact .inr h
  | leave h₁ h' hk hu h0 hev hbig hes =>
    rw [register_leave hes] at h
    exact .inr (map_of_remove h)
  | wait h₁ h' hk hu hev hes => exact .inr (hneutral hes)
  | refuse h₁ h' hk hev hes => exact .inr (hneutral hes)
  | stay h₁ h' hk hu hreg hev hes => exact .inr (hneutral hes)
  | vanish h₁ h' hk hu hev hwhy hes => exact .inr (hneutral hes)
  | finish h₁ h' hk hu hes => exact .inr (hneutral hes)

/-- A session keeps the user that it has let in. -/
theorem turn_known (ht : Turn run ev run' es) (h : phase run ≠ .auth) :
    run'.user_id = run.user_id ∧ phase run' ≠ .auth := by
  cases ht with
  | wait hauth | refuse hauth | enter hauth => exact absurd hauth h
  | stay h₁ h' hk hu => exact ⟨hu, by simp [h']⟩
  | leave h₁ h' hk hu => exact ⟨hu, by simp [h']⟩
  | vanish h₁ h' hk hu => exact ⟨hu, by simp [h']⟩
  | finish h₁ h' hk hu =>
    refine ⟨hu, ?_⟩
    rcases h' with h' | h' <;> simp [h']

theorem own_turn (hw : Own w) (hrun : w.run i = some run) (ht : Turn run ev run' es) :
    Own (w.turn i run ev run' es) := by
  intro u j hm
  rcases map_turn ht hm with ⟨rfl, hu, hlive, _⟩ | hm
  · exact ⟨run', run_turn hrun, hu.symm, by simp [hlive]⟩
  · obtain ⟨r, hr, hu, hphase⟩ := hw u j hm
    by_cases hij : i = j
    · subst hij
      obtain rfl : run = r := Option.some.inj (hrun.symm.trans hr)
      obtain ⟨hu', hphase'⟩ := turn_known ht hphase
      exact ⟨run', run_turn hrun, hu'.trans hu, hphase'⟩
    · exact ⟨r, (run_modify_ne rfl hij).trans hr, hu, hphase⟩

theorem lookup_of_turn (ht : Turn run ev run' es)
    (h : (w.turn i run ev run' es).lookup u = some j) :
    j = i ∧ registering run' ∨ w.lookup u = some j := by
  rw [lookup_turn] at h
  obtain ⟨hm, halive⟩ := lookup_eq_some.mp h
  rcases map_turn ht hm with ⟨hj, _, _, hreg⟩ | hm
  · exact .inl ⟨hj, hreg⟩
  · exact .inr (lookup_eq_some.mpr ⟨hm, halive⟩)

/-- The key of a user after a resumption that does not delete it. -/
theorem online_turn (h : w.online u) (hdel : is_reply ev → deleting run → u ≠ run.user_id) :
    (w.turn i run ev run' es).online u := by
  unfold Connections.online Connections.turn
  dsimp only
  split_ifs with hreply
  · exact online_command h (hdel hreply)
  · exact h

theorem present_turn (hw : Inv w) (hrun : w.run i = some run)
    (hres : run.resume verify ev = some (run', es)) (ht : Turn run ev run' es)
    (hok : KeepsPresence w (.resume i ev)) : Present (w.turn i run ev run' es) := by
  intro u j hl r hr hloop
  rcases lookup_of_turn ht hl with ⟨rfl, hreg⟩ | hl
  · obtain rfl : run' = r := Option.some.inj ((run_turn hrun).symm.trans hr)
    simp [registering_in_loop hloop] at hreg
  by_cases hij : i = j
  · subst hij
    obtain rfl : run' = r := Option.some.inj ((run_turn hrun).symm.trans hr)
    have hu : run.user_id = u := user_of_lookup hw.own hl hrun
    by_cases hbefore : in_loop run
    · refine online_turn (hw.present u i hl run hrun hbefore) fun _ hdel => ?_
      have hlive := phase_in_loop hbefore
      simp [phase_deleting hdel] at hlive
    · obtain ⟨hflush, hbatch⟩ := enters_loop hres hloop (by simpa using hbefore)
      have honline : w.online u := by
        by_contra hoff
        exact hok.2 ⟨run, hrun, hflush, hbatch, hu ▸ hl, by simpa [hu] using hoff⟩
      refine online_turn honline fun _ hdel => ?_
      have hlive := phase_flushing hflush
      simp [phase_deleting hdel] at hlive
  · have hr' : w.run j = some r := (run_modify_ne rfl hij).symm.trans hr
    refine online_turn (hw.present u j hl r hr' hloop) ?_
    rintro hreply hdel rfl
    exact hok.1 ⟨hreply, run, hrun, hdel, j, hl, r, hr', hloop⟩

theorem inv_turn (hw : Inv w) (hrun : w.run i = some run)
    (hres : run.resume verify ev = some (run', es)) (ht : Turn run ev run' es)
    (hok : KeepsPresence w (.resume i ev)) (hs : Sound (w.turn i run ev run' es))
    (hk : Kept (w.turn i run ev run' es)) : Inv (w.turn i run ev run' es) := by
  refine ⟨hs, hk, own_turn hw.own hrun ht, ?_, present_turn hw hrun hres ht hok⟩
  simp only [Connections.turn]
  split_ifs
  · exact minute_command hw.minute
  · exact hw.minute

end Resume

/-! ### The steps -/

theorem not_in_loop_start (transport : Transport) : in_loop (.start transport) = false := by
  cases transport <;> rfl

theorem inv_tick {ms : Nat} (hw : Inv w) (hok : ¬ Expires w ms) :
    Inv { w with now := w.now + ms } := by
  refine ⟨hw.sound, hw.kept, hw.own, hw.minute, ?_⟩
  intro u i hl run hrun hloop
  obtain ⟨e, he, _⟩ := online_iff.mp (hw.present u i hl run hrun hloop)
  have hu : run.user_id = u := user_of_lookup hw.own hl hrun
  obtain ⟨c, hc, _⟩ := run_eq_some.mp hrun
  refine online_iff.mpr ⟨e, he, ?_⟩
  by_contra hgone
  refine hok ⟨i, (List.getElem?_eq_some_iff.mp hc).1, run, hrun, hloop, hu ▸ hl, ?_⟩
  rw [hu, ← hw.minute u e he]
  exact Nat.le_of_not_lt hgone

theorem inv_step {a : Label} (hw : Inv w) (hok : KeepsPresence w a)
    (h : (listeners verify).step w a = some w') : Inv w' := by
  have hs : Sound w' := sound_step hw.sound h
  have hk : Kept w' := kept_step hw.sound hw.kept h
  cases a with
  | accept | upgrade =>
    cases h
    exact inv_open hw hs hk
  | handshake i ok =>
    obtain ⟨c, hc, hstage, hw'⟩ := handshake_eq_some h
    have hnone : ∀ u, w.registry.map u ≠ some i := by
      intro u hm
      obtain ⟨run, hrun, _⟩ := hw.own u i hm
      obtain ⟨d, hd, hdstage⟩ := run_eq_some.mp hrun
      obtain rfl : c = d := Option.some.inj (hc.symm.trans hd)
      simp [hstage] at hdstage
    rcases hw' with rfl | rfl
    · refine inv_idle hw hs hk hc rfl rfl rfl rfl (fun u hm => absurd hm (hnone u)) ?_
      intro run hrun
      cases hrun
      exact not_in_loop_start .tcp
    · refine inv_idle hw hs hk hc rfl rfl rfl rfl (fun u hm => absurd hm (hnone u)) ?_
      intro run hrun
      cases hrun
  | resume i ev =>
    obtain ⟨c, run, run', es, hc, hstage, hres, ht, rfl⟩ := resume_eq_some hw.sound h
    exact inv_turn hw (run_eq_some.mpr ⟨c, hc, hstage⟩) hres ht hok hs hk
  | destroy i =>
    obtain ⟨run, hrun, hactive, rfl⟩ := destroy_eq_some h
    obtain ⟨c, hc, hstage⟩ := run_eq_some.mp hrun
    refine inv_idle hw hs hk hc rfl rfl rfl rfl (fun _ _ => rfl) ?_
    intro r hr
    obtain rfl : run = r := Stage.running.inj (hstage.symm.trans hr)
    by_contra hloop
    have hlive := phase_in_loop (by simpa using hloop)
    simp [phase_of_not_active hactive] at hlive
  | tick ms =>
    cases h
    exact inv_tick hw hok

end Invariant

/-! ## The law -/

/-- A TCP client logs in. -/
def tcp_logs_in (i : Nat) : List Label :=
  [.accept, .handshake i true] ++
    [.header { payload_len := 1, msg_type := MsgType.AUTH.byte } true, .payload [0] true,
      .replied 0, .written, .frames []].map fun ev => .resume i (.tcp ev)

/-- A client that reconnects before its old connection is lost. -/
def reconnects : List Label :=
  tcp_logs_in 0 ++ tcp_logs_in 1 ++ [.resume 0 (.tcp .raised), .resume 0 (.tcp (.replied 0))]

end loomic.presence
