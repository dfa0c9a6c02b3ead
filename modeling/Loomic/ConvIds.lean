-- The ids of direct conversations. A direct message is stored under the lower
-- of the two user ids, and the rows that open the history to its readers pile
-- up under the same id.
import Loomic.Routing

open loomic.database loomic.frame loomic.routing machines

namespace loomic.conv_ids

/-! ## Sends and their detached tasks -/

/-- A direct CHAT frame over TCP, with the id and the time that it gets. -/
structure Send where
  user_id : UserId
  recipient_id : UserId
  content : Bytes
  msg_id : MsgId
  ts_ms : Int64

def Send.conv_id (p : Send) : ConvId := min p.user_id p.recipient_id

def Send.message (p : Send) : OutboundMessage :=
  direct_message p.user_id p.recipient_id p.conv_id p.msg_id p.ts_ms p.content

/-- What `route_message` spawns and does not wait for. -/
inductive Task
  | store_message_async (message : OutboundMessage)
  | upsert_conv_members (conv_id : ConvId) (user_a user_b : UserId)

/-- Postgres, the rows of the table `messages` of Cassandra, and the tasks that have not run. -/
structure State where
  pg : Postgres
  messages : List OutboundMessage
  tasks : List Task

inductive Label
  | send (p : Send)
  | run (i : Nat)

/-- The primary key is `(conv_id, msg_id)`: a second `INSERT` under a key replaces the row. -/
def insert_message (messages : List OutboundMessage) (m : OutboundMessage) :
    List OutboundMessage :=
  messages.filter (fun row => ¬ (row.conv_id = m.conv_id ∧ row.msg_id = m.msg_id)) ++ [m]

/-- A transaction that fails is rolled back, and the task ends with a warning. -/
def State.perform (s : State) : Task → State
  | .store_message_async m => { s with messages := insert_message s.messages m }
  | .upsert_conv_members conv_id user_a user_b =>
    { s with pg := (s.pg.upsert_conv_members conv_id user_a user_b).getD s.pg }

def State.step (s : State) : Label → Option State
  | .send p => some { s with tasks := s.tasks ++
      [.store_message_async p.message, .upsert_conv_members p.conv_id p.user_id p.recipient_id] }
  | .run i => s.tasks[i]?.map fun task => { s with tasks := s.tasks.eraseIdx i }.perform task

/-- The effect of a routing that is such a task. -/
def RouteEffect.task : RouteEffect → Option Task
  | .store_message m => some (.store_message_async m)
  | .upsert_conv_members conv_id user_a user_b => some (.upsert_conv_members conv_id user_a user_b)
  | _ => none

/-- The tasks of a send are those that `route_message` spawns. -/
theorem route_message_tasks {st : Stores} (env : Env st) (user_id : UserId) (hdr : FrameHeader)
    (payload : Bytes) (hdirect : hdr.is_group = false) :
    (Session.route_message env user_id hdr payload).filterMap RouteEffect.task =
      let p : Send := { user_id := user_id, recipient_id := hdr.recipient_id, content := payload
                        msg_id := env.msg_id, ts_ms := env.ts_ms }
      [.store_message_async p.message,
        .upsert_conv_members p.conv_id p.user_id p.recipient_id] := by
  unfold Session.route_message Session.visit queue_offline
  rw [if_neg (by simp [hdirect])]
  split_ifs <;> rfl

/-- Sends to a server whose Postgres is in any state, and the tasks in any order. -/
def server (pg : Postgres) : Machine State Label where
  start := { pg := pg, messages := [], tasks := [] }
  step := State.step

/-- The sends among the labels. -/
def sends (as : List Label) : List Send :=
  as.filterMap fun | .send p => some p | .run _ => none

/-! ## Who may read -/

/-- The check of `GET /conversations/{id}/messages`. -/
def Admits (pg : Postgres) (conv_id : ConvId) (user_id : UserId) : Prop :=
  pg.in_conv conv_id user_id ∨ pg.in_group conv_id user_id

instance (pg : Postgres) (conv_id : ConvId) (user_id : UserId) :
    Decidable (Admits pg conv_id user_id) := by unfold Admits; infer_instance

/-- A message is open to its sender and its recipient only. -/
def Confidential (s : State) : Prop :=
  ∀ m ∈ s.messages, ∀ u, Admits s.pg m.conv_id u → u = m.sender_id ∨ u = m.recipient_id

def Send.Of (p : Send) (u : UserId) : Prop := u = p.user_id ∨ u = p.recipient_id

/-- No send shares its conversation id with anybody else: not with a row that is there already,
and not with another send whose users both exist. -/
structure OwnIds (pg : Postgres) (ps : List Send) : Prop where
  rows : ∀ p ∈ ps, ∀ u, Admits pg p.conv_id u → p.Of u
  sends : ∀ p ∈ ps, ∀ q ∈ ps, p.conv_id = q.conv_id → q.user_id ∈ pg.users →
    q.recipient_id ∈ pg.users → ∀ u, q.Of u → p.Of u

/-! ## What the sends can bring about -/

/-- The send wrote, or will write, the row or the message. -/
structure Inv (pg : Postgres) (ps : List Send) (s : State) : Prop where
  users : s.pg.users = pg.users
  group_members : s.pg.group_members = pg.group_members
  conv_members : ∀ c u, s.pg.in_conv c u → pg.in_conv c u ∨
    ∃ q ∈ ps, q.conv_id = c ∧ q.Of u ∧ q.user_id ∈ pg.users ∧ q.recipient_id ∈ pg.users
  messages : ∀ m ∈ s.messages, ∃ p ∈ ps, m = p.message
  tasks : ∀ t ∈ s.tasks, ∃ p ∈ ps, t = .store_message_async p.message ∨
    t = .upsert_conv_members p.conv_id p.user_id p.recipient_id

theorem inv_perform {pg : Postgres} {ps : List Send} {s : State} {t : Task} (hi : Inv pg ps s)
    (ht : ∃ p ∈ ps, t = .store_message_async p.message ∨
      t = .upsert_conv_members p.conv_id p.user_id p.recipient_id) :
    Inv pg ps (s.perform t) := by
  obtain ⟨hu, hg, hc, hm, htasks⟩ := hi
  obtain ⟨p, hp, rfl | rfl⟩ := ht
  · refine ⟨hu, hg, hc, fun m hmem => ?_, htasks⟩
    rcases List.mem_append.mp hmem with h | h
    · exact hm m (List.mem_filter.mp h).1
    · exact ⟨p, hp, List.mem_singleton.mp h⟩
  · rcases hup : s.pg.upsert_conv_members p.conv_id p.user_id p.recipient_id with _ | pg'
    · simp only [State.perform, hup, Option.getD_none]
      exact ⟨hu, hg, hc, hm, htasks⟩
    · obtain ⟨ha, hb, hu', hg', hrows⟩ := upsert_conv_members_eq_some hup
      simp only [State.perform, hup, Option.getD_some]
      refine ⟨hu'.trans hu, hg'.trans hg, fun c u hrow => ?_, hm, htasks⟩
      rcases (hrows c u).mp hrow with h | ⟨rfl, h⟩
      · exact hc c u h
      · exact .inr ⟨p, hp, rfl, h, hu ▸ ha, hu ▸ hb⟩

theorem inv_run {pg : Postgres} {as : List Label} {s : State}
    (hr : (server pg).run as = some s) : Inv pg (sends as) s := by
  refine Machine.run_induction (I := fun as s => Inv pg (sends as) s) ?_ ?_ hr
  · exact ⟨rfl, rfl, fun _ _ h => .inl h, by simp [server], by simp [server]⟩
  · intro as s a s' _ hi hs
    cases a with
    | send p =>
      cases hs
      obtain ⟨hu, hg, hc, hm, ht⟩ := hi
      rw [show sends (as ++ [.send p]) = sends as ++ [p] by simp [sends]]
      refine ⟨hu, hg, fun c u h => ?_, fun m h => ?_, fun t h => ?_⟩
      · exact (hc c u h).imp_right fun ⟨q, hq, h⟩ => ⟨q, by simp [hq], h⟩
      · obtain ⟨q, hq, h⟩ := hm m h
        exact ⟨q, by simp [hq], h⟩
      · rcases List.mem_append.mp h with h | h
        · obtain ⟨q, hq, h⟩ := ht t h
          exact ⟨q, by simp [hq], h⟩
        · exact ⟨p, by simp, by simpa using h⟩
    | run i =>
      obtain ⟨t, ht, rfl⟩ := Option.map_eq_some_iff.mp hs
      rw [show sends (as ++ [.run i]) = sends as by simp [sends]]
      refine inv_perform ⟨hi.users, hi.group_members, hi.conv_members, hi.messages, ?_⟩
        (hi.tasks t (List.mem_of_getElem? ht))
      exact fun t' ht' => hi.tasks t' (List.mem_of_mem_eraseIdx ht')

theorem confidential_of_ownIds {pg : Postgres} {ps : List Send} {s : State}
    (hi : Inv pg ps s) (hown : OwnIds pg ps) : Confidential s := by
  intro m hm u hu
  obtain ⟨p, hp, rfl⟩ := hi.messages m hm
  have hgroup : s.pg.in_group p.conv_id u ↔ pg.in_group p.conv_id u := by
    simp [Postgres.in_group, hi.group_members]
  rcases hu with hrow | hrow
  · rcases hi.conv_members _ u hrow with h | ⟨q, hq, hc, hof, ha, hb⟩
    · exact hown.rows p hp u (.inl h)
    · exact hown.sends p hp q hq hc.symm ha hb u hof
  · exact hown.rows p hp u (.inr (hgroup.mp hrow))

/-! ## What they do bring about -/

@[simp] theorem sends_append (as bs : List Label) : sends (as ++ bs) = sends as ++ sends bs := by
  simp [sends]

@[simp] theorem sends_run (i : Nat) : sends [.run i] = [] := rfl

@[simp] theorem sends_map_send (ps : List Send) : sends (ps.map .send) = ps := by
  induction ps with
  | nil => rfl
  | cons p ps ih => exact congrArg (p :: ·) ih

theorem step_run {pg : Postgres} {s : State} {i : Nat} {t : Task} (h : s.tasks[i]? = some t) :
    (server pg).step s (.run i) = some ({ s with tasks := s.tasks.eraseIdx i }.perform t) := by
  simp [server, State.step, h]

/-- All the sends are in, and none of their tasks has run. -/
theorem run_sends (pg : Postgres) (ps : List Send) :
    ∃ s, (server pg).run (ps.map .send) = some s ∧ s.pg = pg ∧ s.messages = [] ∧
      ∀ p ∈ ps, .store_message_async p.message ∈ s.tasks ∧
        .upsert_conv_members p.conv_id p.user_id p.recipient_id ∈ s.tasks := by
  induction ps using List.reverseRecOn with
  | nil => exact ⟨_, rfl, rfl, rfl, by simp⟩
  | append_singleton ps p ih =>
    obtain ⟨s, hr, hpg, hmsgs, htasks⟩ := ih
    have hstep : (server pg).step s (.send p) = some { s with tasks := s.tasks ++
      [.store_message_async p.message, .upsert_conv_members p.conv_id p.user_id p.recipient_id] } :=
      rfl
    rw [List.map_append, List.map_singleton]
    refine ⟨_, (server pg).run_step hr hstep, hpg, hmsgs, fun q hq => ?_⟩
    rcases List.mem_append.mp hq with hq | hq
    · exact ⟨List.mem_append_left _ (htasks q hq).1, List.mem_append_left _ (htasks q hq).2⟩
    · rw [List.mem_singleton.mp hq]
      simp

/-- The sends are in, and the store of one of them has run. -/
theorem run_store (pg : Postgres) (ps : List Send) {p : Send} (hp : p ∈ ps) :
    ∃ as s, (server pg).run as = some s ∧ sends as = ps ∧ s.pg = pg ∧
      s.messages = [p.message] ∧
      ∀ q ∈ ps, .upsert_conv_members q.conv_id q.user_id q.recipient_id ∈ s.tasks := by
  obtain ⟨s, hr, hpg, hmsgs, htasks⟩ := run_sends pg ps
  obtain ⟨i, hi⟩ := List.mem_iff_getElem?.mp (htasks p hp).1
  have hrun := (server pg).run_step hr (step_run hi)
  refine ⟨_, _, hrun, by simp, ?_, ?_, fun q hq => ?_⟩
  · exact hpg
  · simp [State.perform, insert_message, hmsgs]
  · obtain ⟨j, hj⟩ := List.mem_iff_getElem?.mp (htasks q hq).2
    refine List.mem_eraseIdx_iff_getElem?.mpr ⟨j, fun hji => ?_, hj⟩
    rw [hji, hi] at hj
    cases hj

theorem ownIds_of_confidential {pg : Postgres} {ps : List Send}
    (h : ∀ as s, (server pg).run as = some s → sends as = ps → Confidential s) :
    OwnIds pg ps := by
  constructor
  · intro p hp u hu
    obtain ⟨as, s, hr, hs, hpg, hmsgs, _⟩ := run_store pg ps hp
    exact h as s hr hs p.message (by simp [hmsgs]) u (hpg ▸ hu)
  · intro p hp q hq hc ha hb u hof
    obtain ⟨as, s, hr, hs, rfl, hmsgs, htasks⟩ := run_store pg ps hp
    obtain ⟨i, hi⟩ := List.mem_iff_getElem?.mp (htasks q hq)
    obtain ⟨pg', hup⟩ := upsert_conv_members_isSome q.conv_id ha hb
    obtain ⟨_, _, _, _, hrows⟩ := upsert_conv_members_eq_some hup
    have hrun := (server s.pg).run_step hr (step_run hi)
    refine h _ _ hrun (by simp [hs]) p.message ?_ u ?_
    · simp [State.perform, hmsgs]
    · refine .inl ?_
      simp only [State.perform, hup, Option.getD_some]
      exact (hrows _ u).mpr (.inr ⟨hc, hof⟩)

/-! ## The law -/

/-- The messages of a run of direct sends are open to their two users only, in whatever order
the detached tasks run, exactly when no send shares its conversation id with somebody else. -/
theorem messages_are_confidential_iff_ids_are_own (pg : Postgres) (ps : List Send) :
    (∀ as s, (server pg).run as = some s → sends as = ps → Confidential s) ↔ OwnIds pg ps :=
  ⟨ownIds_of_confidential, fun hown _ _ hr hs => confidential_of_ownIds (hs ▸ inv_run hr) hown⟩

/-- User 5 writes to user 7 and then to user 9, who thereby may read the first message. -/
theorem a_third_user_may_read :
    ∃ s, (server { Postgres.empty with users := [5, 7, 9] }).run
      [.send { user_id := 5, recipient_id := 7, content := [104, 105], msg_id := 1, ts_ms := 0 },
        .send { user_id := 5, recipient_id := 9, content := [104, 105], msg_id := 2, ts_ms := 0 },
        .run 0, .run 0, .run 0, .run 0] = some s ∧
      direct_message 5 7 5 1 0 [104, 105] ∈ s.messages ∧ Admits s.pg 5 9 ∧ ¬ Confidential s := by
  refine ⟨_, rfl, by decide, by decide, fun h => ?_⟩
  exact absurd (h (direct_message 5 7 5 1 0 [104, 105]) (by decide) 9 (by decide)) (by decide)

end loomic.conv_ids
