-- The gauge `active_connections`, which the metrics describe as all open
-- connections, including unauthenticated ones: for which runs it counts them.
import Loomic.Connections
import Mathlib.Algebra.Order.BigOperators.Group.List

open loomic.cleanup loomic.frame loomic.json loomic.server loomic.session_run machines
open loomic.connections

namespace loomic.gauges

/-! ## What the gauge should be -/

/-- The connection is closed, and its coroutine has returned. -/
def Closed (c : Connection) : Prop :=
  match c.stage with
  | .handshake => False
  | .refused => True
  | .running run => phase run = .done

/-- A closed connection has taken back what it added to the gauge. -/
structure Balanced (w : Connections) : Prop where
  closed : ∀ c ∈ w.conns, Closed c → c.net = 0
  back : (∀ c ∈ w.conns, Closed c) → w.active_connections = 0
  nonneg : 0 ≤ w.active_connections

/-- The resumption closes a TCP connection before its user is known, or leaves the `try` block
of a session by the `co_return` of an oversized CHAT frame or as the user 0. -/
def Unbalanced (run : AnyRun) (ev : AnyEvent) : Prop :=
  phase run = .auth ∧ is_tcp run ∧ Refuses ev ∨
    phase run = .live ∧ Leaves ev ∧ (run.user_id = 0 ∨ Oversized ev)

/-- No resumption closes a connection without the decrement. -/
def BalancedStep (w : Connections) : Label → Prop
  | .resume i ev => ∀ run ∈ w.run i, ¬ Unbalanced run ev
  | _ => True

instance (run : AnyRun) (ev : AnyEvent) : Decidable (Unbalanced run ev) := by
  unfold Unbalanced
  infer_instance

instance (w : Connections) (a : Label) : Decidable (BalancedStep w a) := by
  unfold BalancedStep
  split <;> infer_instance

/-! ## What a connection has added -/

/-- What an open connection has added to the gauge: a WebSocket connection adds itself only
after the authentication. -/
def owed_run (run : AnyRun) : Int :=
  if phase run = .live ∨ phase run = .auth ∧ is_tcp run then 1 else 0

def owed : Stage → Int
  | .handshake => 1
  | .refused => 0
  | .running run => owed_run run

theorem owed_nonneg (stage : Stage) : 0 ≤ owed stage := by
  unfold owed owed_run
  split
  · omega
  · omega
  · split_ifs <;> omega

theorem owed_of_closed {c : Connection} (h : Closed c) : owed c.stage = 0 := by
  unfold Closed at h
  unfold owed
  split at h
  · exact h.elim
  · rfl
  · simp [owed_run, h]

/-- A resumption that is not balanced closes the connection and takes nothing back. The others
keep to what is owed. -/
theorem turn_net {run run' : AnyRun} {ev : AnyEvent} {es : List (Effect Stored)}
    (ht : Turn run ev run' es) :
    Unbalanced run ev ∧ phase run' = .done ∧ owed_run run = 1 ∧ net es = 0 ∨
      ¬ Unbalanced run ev ∧ net es = owed_run run' - owed_run run := by
  unfold Unbalanced owed_run
  cases ht with
  | wait h h' hk hu hev hes =>
    right
    rw [net_neutral hes]
    simpa [h, h', hk] using hev
  | refuse h h' hk hev hes =>
    by_cases htcp : is_tcp run
    · left
      simp [h, h', htcp, hev htcp, net_neutral hes]
    · right
      simp [h, h', htcp, net_neutral hes]
  | enter h h' hk hreg hev hnet hes =>
    right
    refine ⟨by simpa [h] using hev, ?_⟩
    rw [net, hnet]
    · by_cases htcp : is_tcp run <;> simp [h, h', htcp]
    · simp
    · simp
  | stay h h' hk hu hreg hev hes =>
    right
    simp [h, h', hev, net_neutral hes]
  | leave h h' hk hu h0 hev hbig hes =>
    right
    simp [h, h', h0, hbig, net_farewell _ hes]
  | vanish h h' hk hu hev hwhy hes =>
    left
    simp [h, h', hev, hwhy, net_neutral hes]
  | finish h h' hk hu hes =>
    right
    rcases h with h | h <;> rcases h' with h' | h' <;> simp [h, h', net_neutral hes]

/-! ## The runs -/

section Runs

variable {verify : Bytes → Option UserId} {w w' : Connections}

/-- Each connection added what it owes, and nothing else is in the gauge. -/
structure Counted (w : Connections) : Prop where
  sound : Sound w
  owed : ∀ c ∈ w.conns, c.net = owed c.stage
  gauge : w.active_connections = (w.conns.map Connection.net).sum

theorem sum_modify {l : List Connection} {i : Nat} {c : Connection} (hc : l[i]? = some c)
    (f : Connection → Connection) : ((l.modify i f).map Connection.net).sum =
      (l.map Connection.net).sum + ((f c).net - c.net) := by
  induction l generalizing i with
  | nil => simp at hc
  | cons d l ih =>
    cases i with
    | zero =>
      obtain rfl : d = c := by simpa using hc
      simp only [List.modify_zero_cons, List.map_cons, List.sum_cons]
      omega
    | succ i =>
      have htail := ih (by simpa using hc)
      simp only [List.modify_succ_cons, List.map_cons, List.sum_cons, htail]
      omega

theorem counted_start : Counted (listeners verify).start := by
  refine ⟨sound_start, ?_, rfl⟩
  intro c hc
  cases hc

/-- A change of one connection that keeps to what it owes, with the gauge. -/
theorem counted_modify {i : Nat} {c : Connection} {f : Connection → Connection}
    (hw : Counted w) (hs : Sound w') (hc : w.conns[i]? = some c)
    (hconns : w'.conns = w.conns.modify i f)
    (hf : (f c).net = owed (f c).stage)
    (hgauge : w'.active_connections = w.active_connections + ((f c).net - c.net)) :
    Counted w' := by
  refine ⟨hs, ?_, ?_⟩
  · rw [hconns]
    exact forall_modify hw.owed hc hf
  · rw [hgauge, hw.gauge, hconns, sum_modify hc]

theorem counted_open {stage : Stage} {n : Int} (hw : Counted w)
    (hs : Sound (w.open_connection stage n)) (hn : n = owed stage) :
    Counted (w.open_connection stage n) := by
  refine ⟨hs, ?_, ?_⟩
  · intro c hc
    rcases List.mem_append.mp hc with hc | hc
    · exact hw.owed c hc
    · rw [List.mem_singleton.mp hc]
      exact hn
  · simp [Connections.open_connection, hw.gauge]

theorem counted_step {a : Label} (hw : Counted w) (hok : BalancedStep w a)
    (h : (listeners verify).step w a = some w') : Counted w' := by
  have hs : Sound w' := sound_step hw.sound h
  cases a with
  | accept =>
    cases h
    exact counted_open hw hs rfl
  | upgrade =>
    cases h
    exact counted_open hw hs rfl
  | handshake i ok =>
    obtain ⟨c, hc, hstage, rfl | rfl⟩ := handshake_eq_some h
    all_goals
      have hnet : c.net = 1 := by
        rw [hw.owed c (List.mem_of_getElem? hc), hstage]
        rfl
    · refine counted_modify hw hs hc rfl hnet ?_
      simp [Connections.begin_session]
    · refine counted_modify hw hs hc rfl ?_ ?_
      · simp [hnet, owed]
      · simp only [Connections.refuse]
        omega
  | resume i ev =>
    obtain ⟨c, run, run', es, hc, hstage, _, ht, rfl⟩ := resume_eq_some hw.sound h
    have hbal : ¬ Unbalanced run ev := hok run (run_eq_some.mpr ⟨c, hc, hstage⟩)
    have hnet : net es = owed_run run' - owed_run run := by
      rcases turn_net ht with ⟨hno, _⟩ | ⟨_, hnet⟩
      · exact absurd hno hbal
      · exact hnet
    have hcnet : c.net = owed_run run := by
      rw [hw.owed c (List.mem_of_getElem? hc), hstage]
      rfl
    refine counted_modify hw hs hc rfl ?_ ?_
    · simp only [owed, hcnet, hnet]
      omega
    · simp [Connections.turn]
  | destroy i =>
    obtain ⟨run, hrun, hactive, rfl⟩ := destroy_eq_some h
    obtain ⟨c, hc, hstage⟩ := run_eq_some.mp hrun
    refine counted_modify hw hs hc rfl (hw.owed c (List.mem_of_getElem? hc)) ?_
    simp [Connections.free]
  | tick ms =>
    cases h
    exact ⟨hs, hw.owed, hw.gauge⟩

theorem balanced_of_counted (hw : Counted w) : Balanced w := by
  have hclosed : ∀ c ∈ w.conns, Closed c → c.net = 0 := by
    intro c hc hcl
    rw [hw.owed c hc, owed_of_closed hcl]
  refine ⟨hclosed, ?_, ?_⟩
  · intro hall
    rw [hw.gauge]
    apply List.sum_eq_zero
    intro n hn
    obtain ⟨c, hc, rfl⟩ := List.mem_map.mp hn
    exact hclosed c hc (hall c hc)
  · rw [hw.gauge]
    apply List.sum_nonneg
    intro n hn
    obtain ⟨c, hc, rfl⟩ := List.mem_map.mp hn
    rw [hw.owed c hc]
    exact owed_nonneg c.stage

/-- A resumption that is not balanced leaves a closed connection in the gauge. -/
theorem balancedStep_of_balanced {a : Label} (hw : Counted w)
    (h : (listeners verify).step w a = some w') (hbal : Balanced w') : BalancedStep w a := by
  cases a with
  | resume i ev =>
    intro r hr hbad
    obtain ⟨c, run, run', es, hc, hstage, _, ht, rfl⟩ := resume_eq_some hw.sound h
    obtain ⟨d, hd, hdstage⟩ := run_eq_some.mp hr
    obtain rfl : d = c := Option.some.inj (hd.symm.trans hc)
    obtain rfl : r = run := by
      rw [hstage] at hdstage
      exact (Stage.running.inj hdstage).symm
    rcases turn_net ht with ⟨_, hdone, howed, hnet⟩ | ⟨hno, _⟩
    · have hzero := hbal.closed _ (List.mem_of_getElem? (getElem?_turn hc)) hdone
      have hone : d.net = 1 := by
        rw [hw.owed d (List.mem_of_getElem? hc), hstage]
        exact howed
      simp only [hone, hnet] at hzero
      omega
    · exact hno hbad
  | _ => trivial

end Runs

/-! ## The law -/

/-- The gauge counts the open connections in all states of a run exactly when no step of the run
closes a connection without the decrement. -/
theorem the_gauge_counts_connections_iff_steps_are_balanced (verify : Bytes → Option UserId)
    {as : List Label} {w : Connections} (hr : (listeners verify).run as = some w) :
    (∀ bs w', bs <+: as → (listeners verify).run bs = some w' → Balanced w') ↔
      (listeners verify).Meets BalancedStep as :=
  Machine.always_iff_meets counted_start (fun _ _ _ => counted_step)
    (fun _ => balanced_of_counted) (fun _ _ _ => balancedStep_of_balanced) hr

/-- A TCP client and a browser log in as the user 7, and both connections are lost. -/
def two_clients : List Label :=
  [.accept, .handshake 0 true, .upgrade] ++
    ([.header { payload_len := 1, msg_type := MsgType.AUTH.byte } true, .payload [0] true,
      .replied 0, .raised, .replied 0, .replied 0].map fun ev => .resume 0 (.tcp ev)) ++
    ([.accepted, .text (some (.object [("type", .string "auth")])), .replied 0, .frames [], .raised,
      .replied 0, .replied 0].map fun ev => .resume 1 (.ws ev))

theorem the_gauge_counts_two_clients :
    ∃ w, (listeners fun _ => some 7).run two_clients = some w ∧
      ∀ bs w', bs <+: two_clients → (listeners fun _ => some 7).run bs = some w' → Balanced w' :=
  ⟨_, rfl, (the_gauge_counts_connections_iff_steps_are_balanced _ rfl).mpr (by decide +kernel)⟩

/-- A TCP client with an invalid token gets an ERROR frame, and `run()` returns. -/
def refused_client : List Label :=
  [.accept, .handshake 0 true] ++
    [.header { payload_len := 1, msg_type := MsgType.AUTH.byte } true, .payload [0] true,
      .written].map fun ev => .resume 0 (.tcp ev)

theorem a_refused_client_stays_in_the_gauge :
    ∃ w, (listeners fun _ => none).run refused_client = some w ∧ (∀ c ∈ w.conns, Closed c) ∧
      w.active_connections = 1 ∧ ¬ Balanced w := by
  refine ⟨_, rfl, ?_, rfl, ?_⟩
  · intro c hc
    rw [List.mem_singleton.mp hc]
    rfl
  · intro hb
    exact absurd (hb.closed _ List.mem_cons_self rfl) (by decide)

end loomic.gauges
