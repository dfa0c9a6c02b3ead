-- Who is reachable: for which runs the registry names a session that still
-- serves its user, whenever there is one.
import Loomic.Connections

open loomic.cleanup loomic.connections loomic.frame loomic.json loomic.server
open loomic.session_registry loomic.session_run machines

namespace loomic.reachability

/-- The session has registered its user, and has not left the `try` block with the message
loop. -/
def LiveAs (w : Connections) (i : Nat) (user_id : UserId) : Prop :=
  ∃ run ∈ w.run i, phase run = .live ∧ run.user_id = user_id

/-- Whoever has a live session is found by way of a live session. -/
def Reachable (w : Connections) : Prop :=
  ∀ u i, LiveAs w i u → ∃ j, w.lookup u = some j ∧ LiveAs w j u

instance (w : Connections) (i : Nat) (user_id : UserId) : Decidable (LiveAs w i user_id) := by
  unfold LiveAs
  infer_instance

/-- The session that the registry names leaves its loop, and another one of its user is live. -/
def Strands (w : Connections) (i : Nat) (ev : AnyEvent) : Prop :=
  Leaves ev ∧ ∃ run ∈ w.run i, phase run = .live ∧ w.lookup run.user_id = some i ∧
    ∃ j < w.conns.length, j ≠ i ∧ LiveAs w j run.user_id

def LeavesNobody (w : Connections) : Label → Prop
  | .resume i ev => ¬ Strands w i ev
  | _ => True

instance (w : Connections) (i : Nat) (ev : AnyEvent) : Decidable (Strands w i ev) := by
  unfold Strands
  infer_instance

instance (w : Connections) : (a : Label) → Decidable (LeavesNobody w a)
  | .resume i ev => inferInstanceAs (Decidable (¬ Strands w i ev))
  | .accept | .handshake _ _ | .upgrade | .destroy _ | .tick _ => isTrue trivial

/-! ## The sessions that are live -/

section Live

variable {verify : Bytes → Option UserId} {w w' : Connections} {i j : Nat} {u : UserId}
  {ev : AnyEvent}

theorem liveAs_congr (h : w'.run i = w.run i) : LiveAs w' i u ↔ LiveAs w i u := by
  unfold LiveAs
  rw [h]

theorem liveAs_iff {run : AnyRun} (h : w.run i = some run) :
    LiveAs w i u ↔ phase run = .live ∧ run.user_id = u := by
  simp [LiveAs, h]

theorem not_liveAs_of_stage {c : Connection} (hc : w.conns[i]? = some c)
    (h : ∀ run, c.stage = .running run → phase run ≠ .live) : ¬ LiveAs w i u := by
  rintro ⟨run, hrun, hlive, _⟩
  obtain ⟨d, hd, hstage⟩ := run_eq_some.mp hrun
  obtain rfl : c = d := Option.some.inj (hc.symm.trans hd)
  exact h run hstage hlive

theorem lt_length_of_liveAs (h : LiveAs w i u) : i < w.conns.length := by
  obtain ⟨run, hrun, _⟩ := h
  obtain ⟨c, hc, _⟩ := run_eq_some.mp hrun
  exact (List.getElem?_eq_some_iff.mp hc).1

theorem not_reachable_of_lookup (h : LiveAs w i u) (hl : w.lookup u = none) : ¬ Reachable w := by
  intro hr
  obtain ⟨j, hj, _⟩ := hr u i h
  rw [hl] at hj
  cases hj

/-- A step after which the same sessions are live, and are found as they were. -/
theorem reachable_keep (hw : Reachable w) (hlive : ∀ i u, LiveAs w' i u ↔ LiveAs w i u)
    (hlookup : ∀ u j, w.lookup u = some j → LiveAs w j u → w'.lookup u = some j) :
    Reachable w' := by
  intro u i hi
  obtain ⟨j, hj, hjlive⟩ := hw u i ((hlive i u).mp hi)
  exact ⟨j, hlookup u j hj hjlive, (hlive j u).mpr hjlive⟩

/-- Only the connection `i` has changed, and it was not live before and is not now. -/
theorem liveAs_modify {f : Connection → Connection} {c : Connection}
    (h : w'.conns = w.conns.modify i f) (hc : w.conns[i]? = some c)
    (hbefore : ∀ run, c.stage = .running run → phase run ≠ .live)
    (hafter : ∀ run, (f c).stage = .running run → phase run ≠ .live) :
    ∀ j u, LiveAs w' j u ↔ LiveAs w j u := by
  intro j u
  by_cases hij : i = j
  · subst hij
    have hc' : w'.conns[i]? = some (f c) := by
      rw [h, List.getElem?_modify_eq, hc]
      rfl
    exact iff_of_false (not_liveAs_of_stage hc' hafter) (not_liveAs_of_stage hc hbefore)
  · exact liveAs_congr (run_modify_ne h hij)

/-! ## The steps of the machine -/

theorem reachable_open {stage : Stage} {n : Int} (hw : Reachable w)
    (hstage : ∀ run, stage = .running run → phase run ≠ .live) :
    Reachable (w.open_connection stage n) := by
  apply reachable_keep hw
  · intro i u
    by_cases hi : i < w.conns.length
    · exact liveAs_congr (run_congr (getElem?_open hi))
    · refine iff_of_false ?_ fun h => hi (lt_length_of_liveAs h)
      intro h
      obtain rfl : i = w.conns.length := by
        have := lt_length_of_liveAs h
        simp only [Connections.open_connection, List.length_append, List.length_singleton] at this
        omega
      exact not_liveAs_of_stage (List.getElem?_concat_length) hstage h
  · intro u j hj hlive
    obtain ⟨hmap, halive⟩ := lookup_eq_some.mp hj
    refine lookup_eq_some.mpr ⟨hmap, ?_⟩
    rw [alive_congr (getElem?_open (lt_length_of_liveAs hlive))]
    exact halive

/-- A session that lets its user in is the one that is found. -/
theorem reachable_enter {run run' : AnyRun} {es : List (Effect Stored)} (hw : Reachable w)
    (halive : w.alive i) (hrun : w.run i = some run) (hlive : phase run' = .live)
    (hreg : es.foldl (register w.alive i) w.registry = w.registry.insert run'.user_id i)
    (hbefore : phase run ≠ .live) : Reachable (w.turn i run ev run' es) := by
  intro u j hj
  by_cases hu : u = run'.user_id
  · refine ⟨i, ?_, (liveAs_iff (run_turn hrun)).mpr ⟨hlive, hu.symm⟩⟩
    rw [lookup_turn, hreg, lookup_insert _ _ halive, hu, Function.update_self]
  · have hji : i ≠ j := by
      rintro rfl
      exact hu ((liveAs_iff (run_turn hrun)).mp hj).2.symm
    obtain ⟨k, hk, hklive⟩ := hw u j ((liveAs_congr (run_modify_ne rfl hji)).mp hj)
    have hki : i ≠ k := by
      rintro rfl
      exact hbefore ((liveAs_iff hrun).mp hklive).1
    refine ⟨k, ?_, (liveAs_congr (run_modify_ne rfl hki)).mpr hklive⟩
    rw [lookup_turn, hreg, lookup_insert _ _ halive, Function.update_of_ne hu]
    exact hk

/-- A session leaves its loop. The other users are found as before, and its own user is when
another session is in the registry. -/
theorem reachable_leave {run run' : AnyRun} {es : List (Effect Stored)} (hw : Reachable w)
    (hrun : w.run i = some run) (hafter : phase run' ≠ .live)
    (hok : w.lookup run.user_id = some i →
      ¬ ∃ j < w.conns.length, j ≠ i ∧ LiveAs w j run.user_id)
    (hlookup : ∀ u j, j ≠ i → w.lookup u = some j → (w.turn i run ev run' es).lookup u = some j) :
    Reachable (w.turn i run ev run' es) := by
  intro u j hj
  have hji : i ≠ j := by
    rintro rfl
    exact hafter ((liveAs_iff (run_turn hrun)).mp hj).1
  have hj' : LiveAs w j u := (liveAs_congr (run_modify_ne rfl hji)).mp hj
  obtain ⟨k, hk, hklive⟩ := hw u j hj'
  by_cases hki : i = k
  · subst hki
    obtain ⟨_, rfl⟩ := (liveAs_iff hrun).mp hklive
    exact absurd ⟨j, lt_length_of_liveAs hj', Ne.symm hji, hj'⟩ (hok hk)
  · exact ⟨k, hlookup u k (Ne.symm hki) hk, (liveAs_congr (run_modify_ne rfl hki)).mpr hklive⟩

/-- What the registry answers after a session has left it. -/
theorem lookup_leave {run run' : AnyRun} {es : List (Effect Stored)}
    (hreg : es.foldl (register w.alive i) w.registry =
      w.registry.remove w.alive run.user_id (some i)) (u : UserId) :
    (w.turn i run ev run' es).lookup u =
      if u = run.user_id ∧ w.lookup run.user_id = some i then none else w.lookup u := by
  rw [lookup_turn, hreg, lookup_remove]
  rfl

structure Inv (w : Connections) : Prop where
  sound : Sound w
  kept : Kept w
  reachable : Reachable w

theorem inv_start : Inv (listeners verify).start := by
  refine ⟨sound_start, kept_start, ?_⟩
  rintro u i ⟨run, hrun, _⟩
  cases hrun

theorem reachable_resume {run run' : AnyRun} {es : List (Effect Stored)} (hw : Inv w)
    (hrun : w.run i = some run) (ht : Turn run ev run' es) (hok : LeavesNobody w (.resume i ev)) :
    Reachable (w.turn i run ev run' es) := by
  obtain ⟨c, hc, hstage⟩ := run_eq_some.mp hrun
  have hidle : phase run ≠ .live → phase run' ≠ .live → (∀ e ∈ es, Neutral e) →
      Reachable (w.turn i run ev run' es) := by
    intro h h' hes
    apply reachable_keep hw.reachable
    · refine liveAs_modify rfl hc ?_ ?_
      · rintro r hr
        rw [hstage] at hr
        exact Stage.running.inj hr ▸ h
      · rintro r hr
        exact Stage.running.inj hr ▸ h'
    · intro u j hj _
      rw [lookup_turn, register_neutral hes]
      exact hj
  have hstrand : Leaves ev → phase run = .live → w.lookup run.user_id = some i →
      ¬ ∃ j < w.conns.length, j ≠ i ∧ LiveAs w j run.user_id := by
    intro hev h hl hj
    exact hok ⟨hev, run, hrun, h, hl, hj⟩
  cases ht with
  | wait h h' hk hu hev hes => exact hidle (by simp [h]) (by simp [h']) hes
  | refuse h h' hk hev hes => exact hidle (by simp [h]) (by simp [h']) hes
  | finish h h' hk hu hes =>
    apply hidle ?_ ?_ hes
    · rcases h with h | h <;> simp [h]
    · rcases h' with h' | h' <;> simp [h']
  | enter h h' hk hreg hev hnet hes =>
    have halive : w.alive i := alive_of_run hw.kept hrun (by simp [h])
    exact reachable_enter hw.reachable halive hrun h' (register_enter hes) (by simp [h])
  | stay h h' hk hu hreg hev hes =>
    apply reachable_keep hw.reachable
    · intro j u
      by_cases hij : i = j
      · subst hij
        rw [liveAs_iff (run_turn hrun), liveAs_iff hrun, h, h', hu]
      · exact liveAs_congr (run_modify_ne rfl hij)
    · intro u j hj _
      rw [lookup_turn, register_neutral hes]
      exact hj
  | leave h h' hk hu h0 hev hbig hes =>
    refine reachable_leave hw.reachable hrun (by simp [h']) (hstrand hev h) ?_
    intro u j hj hl
    rw [lookup_leave (register_leave hes), if_neg]
    · exact hl
    · rintro ⟨rfl, hi⟩
      exact hj (Option.some.inj (hl.symm.trans hi))
  | vanish h h' hk hu hev hwhy hes =>
    refine reachable_leave hw.reachable hrun (by simp [h']) (hstrand hev h) ?_
    intro u j _ hl
    rw [lookup_turn, register_neutral hes]
    exact hl

theorem inv_step {a : Label} (hw : Inv w) (hok : LeavesNobody w a)
    (h : (listeners verify).step w a = some w') : Inv w' := by
  refine ⟨sound_step hw.sound h, kept_step hw.sound hw.kept h, ?_⟩
  cases a with
  | accept =>
    cases h
    exact reachable_open hw.reachable fun run hrun => by cases hrun
  | upgrade =>
    cases h
    refine reachable_open hw.reachable fun run hrun => ?_
    cases hrun
    simp [phase_start]
  | handshake i ok =>
    obtain ⟨c, hc, hstage, hw'⟩ := handshake_eq_some h
    have hbefore : ∀ run, c.stage = .running run → phase run ≠ .live := by
      intro run hrun
      rw [hstage] at hrun
      cases hrun
    rcases hw' with rfl | rfl
    · apply reachable_keep hw.reachable
      · refine liveAs_modify rfl hc hbefore fun run hrun => ?_
        cases hrun
        simp [phase_start]
      · intro u j hj _
        unfold Connections.lookup
        rw [alive_begin_session]
        exact hj
    · apply reachable_keep hw.reachable
      · refine liveAs_modify rfl hc hbefore fun run hrun => ?_
        cases hrun
      · intro u j hj _
        unfold Connections.lookup
        rw [alive_refuse]
        exact hj
  | resume i ev =>
    obtain ⟨c, run, run', es, hc, hstage, _, ht, rfl⟩ := resume_eq_some hw.sound h
    exact reachable_resume hw (run_eq_some.mpr ⟨c, hc, hstage⟩) ht hok
  | destroy i =>
    obtain ⟨run, hrun, hactive, rfl⟩ := destroy_eq_some h
    have hdone := phase_of_not_active hactive
    have hother : ∀ j u, LiveAs w j u → i ≠ j := by
      rintro j u hj rfl
      simp [liveAs_iff hrun, hdone] at hj
    obtain ⟨c, hc, hstage⟩ := run_eq_some.mp hrun
    have hdead : ∀ r, c.stage = .running r → phase r ≠ .live := by
      intro r hr
      rw [hstage] at hr
      obtain rfl := Stage.running.inj hr
      simp [hdone]
    apply reachable_keep hw.reachable
    · exact liveAs_modify rfl hc hdead hdead
    · intro u j hj hlive
      obtain ⟨hmap, halive⟩ := lookup_eq_some.mp hj
      refine lookup_eq_some.mpr ⟨hmap, ?_⟩
      rw [alive_congr (List.getElem?_modify_ne _ _ (hother j u hlive))]
      exact halive
  | tick ms =>
    cases h
    exact hw.reachable

/-- When the session that the registry names leaves its loop, a session that is left behind is
not found. -/
theorem leavesNobody_of_reachable {a : Label} (hw : Inv w)
    (h : (listeners verify).step w a = some w') (hr : Reachable w') : LeavesNobody w a := by
  cases a with
  | resume i ev =>
    rintro ⟨hev, r, hrun, hlive, hl, j, _, hji, hj⟩
    obtain ⟨c, run, run', es, hc, hstage, _, ht, rfl⟩ := resume_eq_some hw.sound h
    obtain rfl : r = run := Option.some.inj (hrun.symm.trans (run_eq_some.mpr ⟨c, hc, hstage⟩))
    have hother : (w.turn i r ev run' es).run j = w.run j := run_modify_ne rfl (Ne.symm hji)
    have hj' := (liveAs_congr hother).mpr hj
    obtain ⟨k, hk, hklive⟩ := hr _ j hj'
    cases ht with
    | leave h h' hk' hu h0 hev hbig hes =>
      rw [lookup_leave (register_leave hes), if_pos ⟨rfl, hl⟩] at hk
      cases hk
    | vanish h h' hk' hu hev hwhy hes =>
      rw [lookup_turn, register_neutral hes] at hk
      obtain rfl : i = k := Option.some.inj (hl.symm.trans hk)
      simp [liveAs_iff (run_turn hrun), h'] at hklive
    | stay h h' hk' hu hreg hno => exact hno hev
    | finish h =>
      rcases h with h | h
      · exact absurd (h.symm.trans hlive) (by decide)
      · exact absurd (h.symm.trans hlive) (by decide)
    | wait hauth | refuse hauth | enter hauth =>
      exact absurd (hauth.symm.trans hlive) (by decide)
  | _ => trivial

end Live

/-! ## The law -/

/-- Users with a live session are found by way of a live session, in all states of a run,
exactly when no session that the registry names leaves its loop before the other live sessions
of its user. -/
theorem users_are_reachable_iff_nobody_is_left (verify : Bytes → Option UserId)
    {as : List Label} {w : Connections} (hr : (listeners verify).run as = some w) :
    (∀ bs w', bs <+: as → (listeners verify).run bs = some w' → Reachable w') ↔
      (listeners verify).Meets LeavesNobody as :=
  Machine.always_iff_meets inv_start (fun _ _ _ => inv_step) (fun _ hw => hw.reachable)
    (fun _ _ _ => leavesNobody_of_reachable) hr

/-- A connection of a client that logs in. -/
def logs_in (i : Nat) : List Label :=
  [.accept, .handshake i true] ++
    [.header { payload_len := 1, msg_type := MsgType.AUTH.byte } true, .payload [0] true,
      .replied 0, .written, .frames []].map fun ev => .resume i (.tcp ev)

/-- The connection is lost while the session waits for the next frame. -/
def loses_connection (i : Nat) : Label := .resume i (.tcp .raised)

def reconnects : List Label := logs_in 0 ++ logs_in 1 ++ [loses_connection 0]

theorem a_user_who_reconnects_is_reachable :
    ∃ w, (listeners fun _ => some 7).run reconnects = some w ∧
      ∀ bs w', bs <+: reconnects → (listeners fun _ => some 7).run bs = some w' → Reachable w' :=
  ⟨_, rfl, (users_are_reachable_iff_nobody_is_left _ rfl).mpr (by decide +kernel)⟩

/-- The session that was registered last ends first, and the other one is not found any more. -/
theorem a_user_may_be_left_unreachable :
    ∃ w, (listeners fun _ => some 7).run (logs_in 0 ++ logs_in 1 ++ [loses_connection 1]) = some w ∧
      LiveAs w 0 7 ∧ w.lookup 7 = none ∧ ¬ Reachable w := by
  refine ⟨_, rfl, ?_, rfl, ?_⟩
  · exact ⟨_, rfl, rfl, rfl⟩
  · exact not_reachable_of_lookup (i := 0) (u := 7) ⟨_, rfl, rfl, rfl⟩ rfl

end loomic.reachability
