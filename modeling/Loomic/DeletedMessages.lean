-- A message that is stored while it is deleted: store_message_async makes up to
-- three INSERTs in a detached task, and DELETE /messages/{msg_id} sends its
-- statement without waiting for it (CassandraClient::delete_message).
import Loomic.History
import Loomic.Lib.Scheduling

open loomic.auth_handler loomic.frame loomic.history loomic.json coroutines machines scheduling
open loomic.http_handlers (query_param history_json HttpCoroutine)
open loomic.http_server (Request PathParams Response)

namespace loomic.deleted_messages

/-! ## Cassandra -/

/-- The primary key of a row. -/
structure Target where
  conv_id : ConvId
  msg_id : MsgId
  deriving DecidableEq

inductive Statement
  | insert (conv_id : ConvId) (m : Message)
  | delete (target : Target)

def Statement.target : Statement → Target
  | .insert conv_id m => ⟨conv_id, m.msg_id⟩
  | .delete target => target

def Statement.is_insert : Statement → Bool
  | .insert _ _ => true
  | .delete _ => false

/-- What a statement does to the rows of a conversation. -/
def Statement.apply (conv_id : ConvId) (conv : Conversation) : Statement → Conversation
  | .insert conv_id' m => if conv_id' = conv_id then conv.insert m else conv
  | .delete target => if target.conv_id = conv_id then conv.delete target.msg_id else conv

/-- The statements that were executed, oldest first, and those that were sent and are not. -/
structure Cassandra where
  executed : List Statement
  in_flight : List Statement

/-- The rows of a conversation after the statements. -/
def Cassandra.conversation (db : Cassandra) (conv_id : ConvId) : Conversation :=
  db.executed.foldl (Statement.apply conv_id) ⟨[], List.Pairwise.nil⟩

def Cassandra.execute (db : Cassandra) (statement : Statement) : Cassandra :=
  { db with executed := db.executed ++ [statement] }

def Cassandra.send (db : Cassandra) (statement : Statement) : Cassandra :=
  { db with in_flight := db.in_flight ++ [statement] }

/-! ## The tasks -/

/-- An INSERT that is waited for, or a call of the other code. -/
inductive Call
  | insert (conv_id : ConvId) (m : Message)
  | http (call : http_handlers.Call)

/-- An INSERT answers whether its future is `CASS_OK`. -/
@[reducible] def Call.Answer : Call → Type
  | .insert _ _ => Bool
  | .http call => call.Answer

abbrev TaskCoroutine := Coroutine Call Call.Answer (Option Response)

def kMaxAttempts : Nat := 3

/-- The attempts that are left. A message that fails for good goes to the dead letter log. -/
def store_attempts (conv_id : ConvId) (m : Message) : Nat → TaskCoroutine
  | 0 => .ret none
  | attempts + 1 => .await (.insert conv_id m) fun ok =>
    if ok then .ret none else store_attempts conv_id m attempts

def store_message_async (conv_id : ConvId) (m : Message) : TaskCoroutine :=
  store_attempts conv_id m kMaxAttempts

/-- The live delivery to a member. -/
def deliver (member_id : UserId) (message : OutboundMessage) : TaskCoroutine :=
  .await (.http (.lookup member_id)) fun online =>
    .await (.http (if online then .post member_id message else .lpush member_id message)) fun _ =>
      .ret none

/-- A handler as a task. -/
def handler (x : HttpCoroutine) : TaskCoroutine :=
  (x.lift .http fun _ answer => answer).bind fun res => .ret (some res)

inductive Task
  | store (conv_id : ConvId) (m : Message)
  | deliver (member_id : UserId) (message : OutboundMessage)
  | delete (req : Request) (params : PathParams) (gen : Generated)

def spawn (services : Services) : Task → TaskCoroutine
  | .store conv_id m => store_message_async conv_id m
  | .deliver member_id message => deleted_messages.deliver member_id message
  | .delete req params gen => handler (http_handlers.delete_message services gen req params)

/-! ## The steps -/

/-- An INSERT is executed, or its attempt fails and it may be executed later. The other calls
get any answer. -/
inductive Choice
  | applied
  | failed
  | reply (answers : ∀ call : http_handlers.Call, call.Answer)

/-- `cass->delete_message` sends its statement, and does not wait. -/
def Cassandra.call (db : Cassandra) : http_handlers.Call → Cassandra
  | .delete_message conv_id msg_id => db.send (.delete ⟨conv_id, msg_id⟩)
  | _ => db

def exec : Choice → (call : Call) → Cassandra → Option (call.Answer × Cassandra)
  | .applied, .insert conv_id m, db => some (true, db.execute (.insert conv_id m))
  | .failed, .insert conv_id m, db => some (false, db.send (.insert conv_id m))
  | .reply answers, .http call, db => some (answers call, db.call call)
  | _, _, _ => none

/-- A statement in flight is executed, or lost. -/
inductive Event
  | execute (n : Nat)
  | lose (n : Nat)

def Event.apply : Event → Cassandra → Option Cassandra
  | .execute n, db => (db.in_flight[n]?).map fun statement =>
    { db.execute statement with in_flight := db.in_flight.eraseIdx n }
  | .lose n, db => some { db with in_flight := db.in_flight.eraseIdx n }

def server (services : Services) :
    System Cassandra Task Choice Event Call Call.Answer (Option Response) where
  start := ⟨[], []⟩
  spawn := spawn services
  exec := fun _ _ => exec
  env := Event.apply

abbrev State := Pool Cassandra Task Call Call.Answer (Option Response)

abbrev Label := scheduling.Label Task Choice Event

/-! ## The law -/

/-- The message that a DELETE request names. -/
def target_of (req : Request) (params : PathParams) : Option Target :=
  ((params.lookup "msg_id").bind from_chars).bind fun msg_id =>
    (from_chars ((query_param req.target "conv_id").getD "")).map fun conv_id => ⟨conv_id, msg_id⟩

/-- The message of a DELETE request that was answered with 204. -/
def answered_by : Task × TaskCoroutine → Option Target
  | (.delete req params _, .ret (some res)) =>
    if res.status = .no_content then target_of req params else none
  | _ => none

def answered (s : State) : List Target := s.tasks.filterMap answered_by

/-- No GET of a member returns the message. -/
def Gone (db : Cassandra) (t : Target) : Prop :=
  ∀ srv : Server, srv.conv_id = t.conv_id → ∀ target items,
    srv.get (db.conversation t.conv_id) target = some items →
      ∀ item ∈ items, msg_id item ≠ some (toString t.msg_id.toNat)

/-- What was deleted stays deleted. -/
def StaysDeleted (s : State) : Prop := ∀ t ∈ answered s, Gone s.shared t

/-- The last statement on a row that was executed. -/
def Cassandra.last_on (db : Cassandra) (t : Target) : Option Statement :=
  (db.executed.filter (·.target = t)).getLast?

/-- It was an INSERT. -/
def Cassandra.Written (db : Cassandra) (t : Target) : Prop :=
  (db.last_on t).any Statement.is_insert = true

instance decidable_written (db : Cassandra) (t : Target) : Decidable (db.Written t) :=
  inferInstanceAs (Decidable (_ = true))

/-- The row that an INSERT is executed for in a step. -/
def inserts (s : State) : Label → Option Target
  | .resume i .applied => match s.tasks[i]? with
    | some (_, .await (.insert conv_id m) _) => some ⟨conv_id, m.msg_id⟩
    | _ => none
  | .env (.execute n) => match s.shared.in_flight[n]? with
    | some (.insert conv_id m) => some ⟨conv_id, m.msg_id⟩
    | _ => none
  | _ => none

/-- The requests that a step answers with 204. -/
def answers_now (services : Services) (s : State) (a : Label) : List Target :=
  (((server services).machine.step s a).map answered).getD [] |>.filter (· ∉ answered s)

/-- A DELETE request is answered when the last statement on its row is no INSERT, and no INSERT
of the row is executed afterwards. -/
structure InOrder (services : Services) (s : State) (a : Label) : Prop where
  deleted : ∀ t ∈ answers_now services s a, ¬ s.shared.Written t
  inserted : ∀ t ∈ inserts s a, t ∉ answered s

instance decidable_inOrder (services : Services) (s : State) (a : Label) :
    Decidable (InOrder services s a) :=
  decidable_of_iff (_ ∧ _) ⟨fun h => ⟨h.1, h.2⟩, fun h => ⟨h.deleted, h.inserted⟩⟩

/-! ## The rows -/

section Rows

variable {conv : Conversation} {x m : Message} {id : MsgId} {t : Target}

theorem mem_insert : x ∈ (conv.insert m).rows ↔ x = m ∨ x ∈ conv.rows ∧ x.key ≠ m.key := by
  unfold Conversation.insert
  simp only [List.mem_append, List.mem_cons, List.mem_filter, decide_eq_true_eq]
  constructor
  · rintro (⟨hx, hlt⟩ | rfl | ⟨hx, hlt⟩)
    · exact .inr ⟨hx, Nat.ne_of_gt hlt⟩
    · exact .inl rfl
    · exact .inr ⟨hx, Nat.ne_of_lt hlt⟩
  · rintro (rfl | ⟨hx, hne⟩)
    · exact .inr (.inl rfl)
    · rcases Nat.lt_or_gt_of_ne hne with hlt | hgt
      · exact .inr (.inr ⟨hx, hlt⟩)
      · exact .inl ⟨hx, hgt⟩

theorem mem_delete : x ∈ (conv.delete id).rows ↔ x ∈ conv.rows ∧ x.msg_id ≠ id := by
  unfold Conversation.delete
  rw [List.mem_filter, decide_eq_true_eq]

/-- The row is there. -/
def HasRow (conv : Conversation) (id : MsgId) : Prop := ∃ m ∈ conv.rows, m.msg_id = id

theorem hasRow_insert : HasRow (conv.insert m) id ↔ m.msg_id = id ∨ HasRow conv id := by
  unfold HasRow
  constructor
  · rintro ⟨x, hx, rfl⟩
    rcases mem_insert.mp hx with rfl | ⟨hx, _⟩
    · exact .inl rfl
    · exact .inr ⟨x, hx, rfl⟩
  · rintro (rfl | ⟨x, hx, rfl⟩)
    · exact ⟨m, mem_insert.mpr (.inl rfl), rfl⟩
    · by_cases hkey : x.key = m.key
      · exact ⟨m, mem_insert.mpr (.inl rfl), (UInt64.toNat_inj.mp hkey).symm⟩
      · exact ⟨x, mem_insert.mpr (.inr ⟨hx, hkey⟩), rfl⟩

theorem hasRow_delete {id' : MsgId} :
    HasRow (conv.delete id') id ↔ id' ≠ id ∧ HasRow conv id := by
  unfold HasRow
  constructor
  · rintro ⟨x, hx, rfl⟩
    obtain ⟨hx, hne⟩ := mem_delete.mp hx
    exact ⟨Ne.symm hne, x, hx, rfl⟩
  · rintro ⟨hne, x, hx, rfl⟩
    exact ⟨x, mem_delete.mpr ⟨hx, Ne.symm hne⟩, rfl⟩

/-- A statement decides its own row, and leaves the others alone. -/
theorem hasRow_apply (statement : Statement) :
    HasRow (statement.apply t.conv_id conv) t.msg_id ↔
      if statement.target = t then statement.is_insert = true else HasRow conv t.msg_id := by
  obtain ⟨c, id⟩ := t
  cases statement with
  | insert c' m =>
    unfold Statement.apply
    simp only [Statement.target, Target.mk.injEq, Statement.is_insert]
    by_cases hc : c' = c
    · rw [if_pos hc, hasRow_insert]
      by_cases hid : m.msg_id = id
      · simp [hc, hid]
      · simp [hid]
    · rw [if_neg hc, if_neg fun h => hc h.1]
  | delete t' =>
    obtain ⟨c', id'⟩ := t'
    unfold Statement.apply
    simp only [Statement.target, Target.mk.injEq, Statement.is_insert]
    by_cases hc : c' = c
    · rw [if_pos hc, hasRow_delete]
      by_cases hid : id' = id
      · simp [hc, hid]
      · simp [hid]
    · rw [if_neg hc, if_neg fun h => hc h.1]

end Rows

section Cassandra

variable {db : Cassandra} {t : Target}

theorem written_execute (statement : Statement) :
    (db.execute statement).Written t ↔
      if statement.target = t then statement.is_insert = true else db.Written t := by
  unfold Cassandra.Written Cassandra.last_on Cassandra.execute
  rw [List.filter_append]
  by_cases ht : statement.target = t
  · rw [List.filter_cons_of_pos (by exact decide_eq_true ht), if_pos ht, List.filter_nil,
      List.getLast?_concat, Option.any_some]
  · rw [List.filter_cons_of_neg (by simpa using ht), if_neg ht, List.filter_nil, List.append_nil]

/-- The row is there exactly when the last statement on it was an INSERT. -/
theorem hasRow_iff_written : HasRow (db.conversation t.conv_id) t.msg_id ↔ db.Written t := by
  obtain ⟨executed, in_flight⟩ := db
  induction executed using List.reverseRecOn with
  | nil =>
    unfold HasRow Cassandra.conversation Cassandra.Written Cassandra.last_on
    simp
  | append_singleton executed statement ih =>
    have hsnoc : Cassandra.conversation ⟨executed ++ [statement], in_flight⟩ t.conv_id =
        statement.apply t.conv_id (Cassandra.conversation ⟨executed, in_flight⟩ t.conv_id) := by
      unfold Cassandra.conversation
      rw [List.foldl_concat]
    rw [hsnoc, hasRow_apply, ih]
    exact (written_execute statement).symm

/-- Without the row, no GET returns the message. -/
theorem gone_of_not_written (h : ¬ db.Written t) : Gone db t := by
  intro srv _ target items hget item hitem hid
  rw [get_rows, Option.some.injEq] at hget
  subst hget
  obtain ⟨row, hrow, rfl⟩ := List.mem_map.mp hitem
  obtain ⟨m, hm, rfl⟩ := List.mem_map.mp hrow
  have hmem : m ∈ (db.conversation t.conv_id).rows :=
    (List.mem_filter.mp (List.mem_of_mem_take hm)).1
  apply h
  apply hasRow_iff_written.mp
  refine ⟨m, hmem, ?_⟩
  rw [msg_id_history_json, Option.some.injEq] at hid
  have hnumber := congrArg from_chars hid
  rw [from_chars_id, from_chars_id, Option.some.injEq] at hnumber
  exact hnumber

end Cassandra

/-! ## The run -/

/-- The task of a DELETE request is at a call of its handler. -/
def RunsHandler : Task × TaskCoroutine → Prop
  | (.delete _ _ _, x) => ∃ y, x = handler y
  | (.store _ _, _) | (.deliver _ _, _) => True

theorem runsHandler_spawn (services : Services) (n : Task) :
    RunsHandler (n, spawn services n) := by
  cases n with
  | store conv_id m => trivial
  | deliver member_id message => trivial
  | delete req params gen => exact ⟨_, rfl⟩

theorem runsHandler_resume {n : Task} {call : Call} {resume : call.Answer → TaskCoroutine}
    (h : RunsHandler (n, .await call resume)) (answer : call.Answer) :
    RunsHandler (n, resume answer) := by
  cases n with
  | store conv_id m => trivial
  | deliver member_id message => trivial
  | delete req params gen =>
    obtain ⟨y, hy⟩ := h
    cases y with
    | ret res => cases hy
    | throw => cases hy
    | await call' k =>
      cases hy
      exact ⟨k answer, rfl⟩

/-- A task that stands before an INSERT answers no DELETE request. -/
theorem answered_by_inserter {n : Task} {conv_id : ConvId} {m : Message}
    {resume : Bool → TaskCoroutine} (h : RunsHandler (n, .await (.insert conv_id m) resume))
    (x : TaskCoroutine) : answered_by (n, x) = none := by
  cases n with
  | store conv_id m => rfl
  | deliver member_id message => rfl
  | delete req params gen =>
    obtain ⟨y, hy⟩ := h
    cases y <;> cases hy

section Run

variable {services : Services} {s s' : State} {a : Label} {t : Target}

theorem runsHandler_step (h : ∀ task ∈ s.tasks, RunsHandler task)
    (hturn : Turn (server services) s a s') : ∀ task ∈ s'.tasks, RunsHandler task := by
  cases hturn with
  | spawn n =>
    intro task hmem
    rcases List.mem_append.mp hmem with hmem | hmem
    · exact h task hmem
    · obtain rfl := List.mem_singleton.mp hmem
      exact runsHandler_spawn services n
  | resume htask _ =>
    intro task hmem
    rcases List.mem_or_eq_of_mem_set hmem with hmem | rfl
    · exact h task hmem
    · exact runsHandler_resume (h _ (List.mem_of_getElem? htask)) _
  | env _ => exact h

/-- A call executes its INSERT, or nothing. -/
theorem exec_cases {choice : Choice} {call : Call} {answer : call.Answer} {db db' : Cassandra}
    (hexec : exec choice call db = some (answer, db')) :
    (∃ conv_id m, call = .insert conv_id m ∧ choice = .applied ∧
      db' = db.execute (.insert conv_id m)) ∨ db'.executed = db.executed := by
  cases call with
  | insert conv_id m =>
    cases choice with
    | applied =>
      obtain ⟨-, rfl⟩ := Prod.mk.inj (Option.some.inj hexec)
      exact .inl ⟨conv_id, m, rfl, rfl, rfl⟩
    | failed =>
      obtain ⟨-, rfl⟩ := Prod.mk.inj (Option.some.inj hexec)
      exact .inr rfl
    | reply answers => cases hexec
  | http call =>
    cases choice with
    | applied => cases hexec
    | failed => cases hexec
    | reply answers =>
      obtain ⟨-, rfl⟩ := Prod.mk.inj (Option.some.inj hexec)
      right
      cases call <;> rfl

theorem written_of_executed {db db' : Cassandra} (h : db'.executed = db.executed)
    (hw : db'.Written t) : db.Written t := by
  unfold Cassandra.Written Cassandra.last_on at *
  rwa [← h]

/-- The row of another statement was written before. -/
theorem target_of_written {db : Cassandra} {statement : Statement}
    (hw : (db.execute statement).Written t) (hnot : ¬ db.Written t) :
    statement.is_insert = true ∧ statement.target = t := by
  rw [written_execute] at hw
  split at hw
  · rename_i ht
    exact ⟨hw, ht⟩
  · exact absurd hw hnot

/-- A row is written by the INSERT of the step, or was before. -/
theorem written_step (hturn : Turn (server services) s a s') (hw : s'.shared.Written t)
    (hnot : ¬ s.shared.Written t) : inserts s a = some t := by
  cases hturn with
  | spawn n => exact absurd hw hnot
  | @resume i choice n call resume answer shared htask hexec =>
    rcases exec_cases hexec with ⟨conv_id, m, rfl, rfl, rfl⟩ | hsame
    · unfold inserts
      dsimp only
      rw [htask]
      exact congrArg some (target_of_written hw hnot).2
    · exact absurd (written_of_executed hsame hw) hnot
  | @env e shared henv =>
    cases e with
    | execute n =>
      obtain ⟨statement, hstatement, rfl⟩ := Option.map_eq_some_iff.mp henv
      have hexecuted : (s.shared.execute statement).Written t := hw
      obtain ⟨hinsert, ht⟩ := target_of_written hexecuted hnot
      unfold inserts
      dsimp only
      rw [hstatement]
      cases statement with
      | insert conv_id m => exact congrArg some ht
      | delete target => cases hinsert
    | lose n =>
      obtain rfl := Option.some.inj henv
      exact absurd hw hnot

/-- The step of an INSERT answers no request. -/
theorem answered_of_inserts (h : ∀ task ∈ s.tasks, RunsHandler task)
    (hturn : Turn (server services) s a s') (hins : inserts s a = some t) {t' : Target}
    (ht : t' ∈ answered s') : t' ∈ answered s := by
  cases hturn with
  | spawn n => cases hins
  | @resume i choice n call resume answer shared htask hexec =>
    obtain ⟨task, hmem, heq⟩ := List.mem_filterMap.mp ht
    rcases List.mem_or_eq_of_mem_set hmem with hmem | rfl
    · exact List.mem_filterMap.mpr ⟨task, hmem, heq⟩
    · unfold inserts at hins
      cases choice with
      | failed => cases hins
      | reply answers => cases hins
      | applied =>
        cases call with
        | http call => cases hexec
        | insert conv_id m =>
          rw [answered_by_inserter (h _ (List.mem_of_getElem? htask))] at heq
          cases heq
  | env _ => exact ht

/-- What is known of every state: no row of an answered request is there. -/
structure Deleted (s : State) : Prop where
  tasks : ∀ task ∈ s.tasks, RunsHandler task
  rows : ∀ t ∈ answered s, ¬ s.shared.Written t

theorem deleted_start : Deleted (server services).machine.start where
  tasks := by intro task hmem; cases hmem
  rows := by intro t ht; cases ht

theorem deleted_step (h : Deleted s) (hok : InOrder services s a)
    (hs : (server services).machine.step s a = some s') : Deleted s' := by
  have hturn := turn_of_step hs
  refine ⟨runsHandler_step h.tasks hturn, fun t ht hw => ?_⟩
  by_cases hbefore : t ∈ answered s
  · have hins := written_step hturn hw (h.rows t hbefore)
    exact hok.inserted t hins hbefore
  · have hnow : t ∈ answers_now services s a := by
      unfold answers_now
      rw [hs]
      exact List.mem_filter.mpr ⟨ht, decide_eq_true hbefore⟩
    have hins := written_step hturn hw (hok.deleted t hnow)
    exact hbefore (answered_of_inserts h.tasks hturn hins ht)

/-- In a run in which no INSERT is the last statement on the row when a request is answered, or
comes later, what was deleted stays deleted. -/
theorem a_deleted_message_stays_deleted_in_order {as : List Label}
    (hok : (server services).machine.Meets (InOrder services) as)
    (hr : (server services).machine.run as = some s) : StaysDeleted s := by
  have h : Deleted s := Machine.invariant_of_meets deleted_start
    (fun _ _ _ h hok hs => deleted_step h hok hs) hok hr
  exact fun t ht => gone_of_not_written (h.rows t ht)

end Run

/-! ## A message of two friends -/

section Examples

/-- The message 10 from 5 to 7. -/
def stored : Message := text_message 10 (by decide) (by decide)

def delivery : OutboundMessage :=
  { conv_id := 100, msg_id := 10, sender_id := 5, recipient_id := 7 }

/-- The conversation is the one of 5 and 7, who are not online. -/
def friends : Choice := .reply fun
  | .select_conv_members _ => some [5, 7]
  | call => http_answers.failing 0 call

def delete_task : Task :=
  .delete
    { method := .delete_, target := "/messages/10?conv_id=100", authorization := "Bearer five" }
    [("msg_id", "10")] {}

/-- The INSERT is executed before the request comes, and the DELETE before it is answered. -/
def in_order : List Label :=
  [.spawn (.store 100 stored), .spawn (.deliver 7 delivery), .resume 0 .applied, .resume 1 friends,
    .spawn delete_task, .resume 2 friends, .resume 2 friends, .env (.execute 0),
    .resume 2 friends, .resume 2 friends, .resume 2 friends, .resume 2 friends]

/-- The message is delivered, and its INSERT executed after the request was answered. -/
def out_of_order : List Label :=
  [.spawn (.store 100 stored), .spawn (.deliver 7 delivery), .resume 1 friends, .resume 1 friends,
    .spawn delete_task, .resume 2 friends, .resume 2 friends, .resume 2 friends,
    .resume 2 friends, .resume 2 friends, .resume 2 friends, .env (.execute 0),
    .resume 0 .applied]

theorem a_message_that_was_stored_first_stays_deleted :
    ∃ s, (server member_five.services).machine.run in_order = some s ∧ StaysDeleted s ∧
      answered s = [⟨100, 10⟩] := by
  have hok : (server member_five.services).machine.Meets (InOrder member_five.services) in_order :=
    by decide +kernel
  exact ⟨_, rfl, a_deleted_message_stays_deleted_in_order hok rfl, by decide +kernel⟩

/-- The history shows a message that was deleted. -/
theorem a_message_comes_back_when_it_is_stored_late :
    ∃ s, (server member_five.services).machine.run out_of_order = some s ∧ ¬ StaysDeleted s := by
  refine ⟨_, rfl, fun h => ?_⟩
  have hgone := h ⟨100, 10⟩ (by decide +kernel) member_five rfl _ _ get_first
  exact hgone _ List.mem_cons_self rfl

end Examples

end loomic.deleted_messages
