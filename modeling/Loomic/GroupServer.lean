-- The requests that change groups, as tasks over one Postgres and one Redis:
-- each transaction and each command is a step, and other requests are served
-- between two steps of one.
import Loomic.GroupsHandler
import Loomic.Lib.Scheduling

open coroutines loomic.auth_handler loomic.frame loomic.groups_handler loomic.http_server
open loomic.json machines scheduling
open loomic.database (Postgres Role Stores)

namespace loomic.group_server

/-! ## The stores -/

inductive Change
  | rename (name : String)
  | insertion (new_uid : UserId)
  | removal (target_uid : UserId)
  deriving DecidableEq

/-- A write that has committed, with the user who asked for it and the tables it found. -/
structure Write where
  group_id : ConvId
  caller : Option UserId
  change : Change
  before : Postgres

/-- Postgres with the column `name` of `groups`, and Redis. `writes` is not in the code: the
renames, insertions and removals that have committed, oldest first. -/
structure Shared where
  st : Stores
  name : ConvId → String
  writes : List Write

def Shared.empty : Shared :=
  { st := database.stores.start, name := fun _ => "", writes := [] }

def Shared.write (s : Shared) (group_id : ConvId) (caller : Option UserId) (change : Change)
    (pg : Postgres) : Shared :=
  { s with
    st := { s.st with pg := pg }
    writes := s.writes ++ [⟨group_id, caller, change, s.st.pg⟩] }

/-- `SELECT role FROM group_members WHERE group_id=$1 AND user_id=$2`. -/
def role_of (pg : Postgres) (group_id : ConvId) (user_id : UserId) : Option Role :=
  (pg.group_members.find? fun row => row.1 = group_id ∧ row.2.1 = user_id).map (·.2.2)

/-- `UPDATE groups SET name=$1 WHERE id=$2`. -/
def Shared.update_name (s : Shared) (group_id : ConvId) (name : String) : Shared :=
  if group_id ∈ s.st.pg.groups then { s with name := Function.update s.name group_id name } else s

/-! ## The requests -/

inductive GroupRequest
  | create (req : Request) (gen : Generated)
  | rename (req : Request) (params : PathParams)
  | add (req : Request) (params : PathParams)
  | remove (req : Request) (params : PathParams)

def GroupRequest.req : GroupRequest → Request
  | .create req _ | .rename req _ | .add req _ | .remove req _ => req

/-- The user whose token the request carries. -/
def caller (services : Services) (n : GroupRequest) : Option UserId :=
  require_auth services n.req.authorization

def serve (services : Services) : GroupRequest → GroupsCoroutine
  | .create req gen => create_group services gen req []
  | .rename req params => rename_group services req params
  | .add req params => add_member services req params
  | .remove req params => remove_member services req params

/-- A transaction answers when it has committed. When it fails, or a constraint refuses it, it
throws, and the tables stay as they were. -/
def transaction {α : Type} (s : Shared) : Option α → Option Shared → Option α × Shared
  | some answer, some after => (some answer, after)
  | some _, none | none, _ => (none, s)

/-- A call of a request. The time is that of the transaction, which fails without one. The
requests that are served do not select groups and members, and Redis does not fail. -/
def exec (services : Services) (n : GroupRequest) (now : Option String) :
    (call : GroupsCall) → Shared → Option (call.Answer × Shared)
  | .insert_group group_id name creator_id member_ids, s =>
    some (transaction s now ((s.st.pg.create_group group_id creator_id member_ids).map fun pg =>
      { s with
        st := { s.st with pg := pg }
        name := Function.update s.name group_id name }))
  | .select_group _, _ | .select_members _, _ => none
  | .select_role group_id caller_id, s =>
    some (transaction s (now.map fun _ => role_of s.st.pg group_id caller_id) (some s))
  | .update_name group_id name, s =>
    some (transaction s (now.map fun _ => ())
      (some ((s.update_name group_id name).write group_id (caller services n) (.rename name)
        s.st.pg)))
  | .insert_member group_id new_uid, s =>
    some (transaction s (now.map fun _ => ())
      ((s.st.pg.insert_group_member group_id new_uid .member).map fun pg =>
        s.write group_id (caller services n) (.insertion new_uid) pg))
  | .delete_member group_id target_uid, s =>
    some (transaction s (now.map fun _ => ())
      (some (s.write group_id (caller services n) (.removal target_uid)
        (s.st.pg.remove_group_member group_id target_uid))))
  | .sadd_group_member group_id user_id, s =>
    some ((), { s with st := s.st.sadd group_id user_id })
  | .srem_group_member group_id user_id, s =>
    some ((), { s with st := s.st.srem group_id user_id })

/-- `POST /auth/register` inserts a user. -/
inductive Event
  | register (user_id : UserId)

def Event.apply : Event → Shared → Option Shared
  | .register user_id, s =>
    (s.st.pg.insert_user user_id).map fun pg => { s with st := { s.st with pg := pg } }

def server (services : Services) :
    System Shared GroupRequest (Option String) Event GroupsCall GroupsCall.Answer Response where
  start := .empty
  spawn := serve services
  exec := fun _ => exec services
  env := Event.apply

abbrev State := Pool Shared GroupRequest GroupsCall GroupsCall.Answer Response

abbrev Label := scheduling.Label GroupRequest (Option String) Event

/-- How a transaction ends. -/
theorem transaction_eq {α : Type} {s s' : Shared} {now answer : Option α} {after : Option Shared}
    (h : transaction s now after = (answer, s')) :
    (now = none ∨ after = none) ∧ answer = none ∧ s' = s ∨
      ∃ v, now = some v ∧ answer = some v ∧ after = some s' := by
  unfold transaction at h
  split at h <;> obtain ⟨rfl, rfl⟩ := Prod.mk.inj h
  · exact .inr ⟨_, rfl, rfl, rfl⟩
  · exact .inl ⟨.inr rfl, rfl, rfl⟩
  · exact .inl ⟨.inl rfl, rfl, rfl⟩

@[simp] theorem update_name_st (s : Shared) (group_id : ConvId) (name : String) :
    (s.update_name group_id name).st = s.st := by
  unfold Shared.update_name
  split <;> rfl

@[simp] theorem update_name_writes (s : Shared) (group_id : ConvId) (name : String) :
    (s.update_name group_id name).writes = s.writes := by
  unfold Shared.update_name
  split <;> rfl

/-! ## The admins of a group -/

/-- The row of a user was deleted. -/
def Removed (s : Shared) (group_id : ConvId) (user_id : UserId) : Prop :=
  ∃ w ∈ s.writes, w.group_id = group_id ∧ w.change = .removal user_id ∧
    w.before.in_group group_id user_id

instance (s : Shared) (group_id : ConvId) (user_id : UserId) :
    Decidable (Removed s group_id user_id) := by unfold Removed; infer_instance

/-- What the check of a role finds out, as it is later: an admin stays one until his row is
deleted. -/
def Vetted (s : Shared) (group_id : ConvId) (user_id : UserId) : Prop :=
  s.st.is_admin group_id user_id ∨ Removed s group_id user_id

/-- Who was removed is no admin again: only the creator of a new group becomes one. -/
structure Consistent (s : Shared) : Prop where
  groups : ∀ row ∈ s.st.pg.group_members, row.1 ∈ s.st.pg.groups
  known : ∀ g u, Removed s g u → g ∈ s.st.pg.groups
  removed : ∀ g u, Removed s g u → ¬ s.st.is_admin g u

/-- The tables and the history change like this in any step. -/
structure Keeps (s s' : Shared) : Prop where
  consistent : Consistent s'
  vetted : ∀ g u, Vetted s g u → Vetted s' g u

section Tables

variable {s s' : Shared} {group_id : ConvId}

theorem consistent_empty : Consistent .empty where
  groups := by intro row hrow; cases hrow
  known := by rintro g u ⟨w, hw, _⟩; cases hw
  removed := by rintro g u ⟨w, hw, _⟩; cases hw

theorem Consistent.keeps (h : Consistent s) : Keeps s s := ⟨h, fun _ _ hv => hv⟩

theorem role_of_eq_some {pg : Postgres} {user_id : UserId} {role : Role}
    (h : role_of pg group_id user_id = some role) :
    (group_id, user_id, role) ∈ pg.group_members := by
  unfold role_of at h
  obtain ⟨⟨g, u, r⟩, hrow, rfl⟩ := Option.map_eq_some_iff.mp h
  have hkey := List.find?_some hrow
  simp only [decide_eq_true_eq] at hkey
  obtain ⟨rfl, rfl⟩ := hkey
  exact List.mem_of_find?_eq_some hrow

theorem removed_write {caller : Option UserId} {change : Change} {pg : Postgres} {g : ConvId}
    {u : UserId} : Removed (s.write group_id caller change pg) g u ↔
      Removed s g u ∨ group_id = g ∧ change = .removal u ∧ s.st.pg.in_group g u := by
  unfold Removed Shared.write
  simp only [List.mem_append, List.mem_singleton]
  constructor
  · rintro ⟨w, hw | rfl, hkey⟩
    · exact .inl ⟨w, hw, hkey⟩
    · exact .inr hkey
  · rintro (⟨w, hw, hkey⟩ | hkey)
    · exact ⟨w, .inl hw, hkey⟩
    · exact ⟨_, .inr rfl, hkey⟩

/-- Redis and the names do not matter. -/
theorem Consistent.keeps_of_eq (h : Consistent s) (hgroups : s'.st.pg.groups = s.st.pg.groups)
    (hrows : s'.st.pg.group_members = s.st.pg.group_members) (hwrites : s'.writes = s.writes) :
    Keeps s s' := by
  have hadmin : ∀ g u, s'.st.is_admin g u ↔ s.st.is_admin g u := by
    intro g u
    unfold Stores.is_admin
    rw [hrows]
  have hremoved : ∀ g u, Removed s' g u ↔ Removed s g u := by
    intro g u
    unfold Removed
    rw [hwrites]
  refine ⟨⟨?_, ?_, ?_⟩, ?_⟩
  · rw [hgroups, hrows]
    exact h.groups
  · intro g u hr
    rw [hgroups]
    exact h.known g u ((hremoved g u).mp hr)
  · intro g u hr
    rw [hadmin]
    exact h.removed g u ((hremoved g u).mp hr)
  · rintro g u (hv | hv)
    · exact .inl ((hadmin g u).mpr hv)
    · exact .inr ((hremoved g u).mpr hv)

/-- A new group has no row of an old one. -/
theorem Consistent.create (h : Consistent s) {creator_id : UserId} {member_ids : List UserId}
    {pg : Postgres} (hpg : s.st.pg.create_group group_id creator_id member_ids = some pg)
    (name : ConvId → String) :
    Keeps s { s with st := { s.st with pg := pg }, name := name } := by
  obtain ⟨hnew, hgroups, hrows, _⟩ := database.create_group_eq_some hpg
  have hold : ∀ g ∈ s.st.pg.groups, g ≠ group_id := by
    rintro g hg rfl
    exact hnew hg
  refine ⟨⟨?_, ?_, ?_⟩, ?_⟩
  · intro row hrow
    dsimp only at hrow ⊢
    rw [hgroups, List.mem_append, List.mem_singleton]
    by_cases hkey : row.1 = group_id
    · exact .inr hkey
    · exact .inl (h.groups row ((hrows row hkey).mp hrow))
  · intro g u hr
    dsimp only
    rw [hgroups]
    exact List.mem_append_left _ (h.known g u hr)
  · intro g u hr hadmin
    exact h.removed g u hr ((hrows _ (hold g (h.known g u hr))).mp hadmin)
  · rintro g u (hv | hv)
    · exact .inl ((hrows _ (hold g (h.groups _ hv))).mpr hv)
    · exact .inr hv

/-- The name of a group is no matter of its members. -/
theorem Consistent.rename (h : Consistent s) (caller : Option UserId) (name : String) :
    Keeps s ((s.update_name group_id name).write group_id caller (.rename name) s.st.pg) := by
  have hremoved : ∀ g u, Removed ((s.update_name group_id name).write group_id caller
      (.rename name) s.st.pg) g u ↔ Removed s g u := by
    intro g u
    rw [removed_write]
    constructor
    · rintro (hr | ⟨_, hchange, _⟩)
      · unfold Removed at hr
        rw [update_name_writes] at hr
        exact hr
      · cases hchange
    · intro hr
      refine .inl ?_
      unfold Removed
      rw [update_name_writes]
      exact hr
  refine ⟨⟨h.groups, ?_, ?_⟩, ?_⟩
  · intro g u hr
    exact h.known g u ((hremoved g u).mp hr)
  · intro g u hr
    exact h.removed g u ((hremoved g u).mp hr)
  · rintro g u (hv | hv)
    · exact .inl hv
    · exact .inr ((hremoved g u).mpr hv)

/-- A new member is no admin. -/
theorem Consistent.insert (h : Consistent s) (caller : Option UserId) {new_uid : UserId}
    {pg : Postgres} (hpg : s.st.pg.insert_group_member group_id new_uid .member = some pg) :
    Keeps s (s.write group_id caller (.insertion new_uid) pg) := by
  obtain ⟨hgroups, hgroup, hrows, _⟩ := database.insert_group_member_eq_some hpg
  have hremoved : ∀ g u, Removed (s.write group_id caller (.insertion new_uid) pg) g u →
      Removed s g u := by
    intro g u hr
    rcases removed_write.mp hr with hr | ⟨_, hchange, _⟩
    · exact hr
    · cases hchange
  refine ⟨⟨?_, ?_, ?_⟩, ?_⟩
  · intro row hrow
    unfold Shared.write at hrow ⊢
    dsimp only at hrow ⊢
    rw [hgroups]
    rcases (hrows row).mp hrow with hold | ⟨rfl, _⟩
    · exact h.groups row hold
    · exact hgroup
  · intro g u hr
    unfold Shared.write
    dsimp only
    rw [hgroups]
    exact h.known g u (hremoved g u hr)
  · intro g u hr hadmin
    rcases (hrows _).mp hadmin with hold | ⟨hrow, _⟩
    · exact h.removed g u (hremoved g u hr) hold
    · cases hrow
  · rintro g u (hv | hv)
    · exact .inl ((hrows _).mpr (.inl hv))
    · exact .inr (removed_write.mpr (.inl hv))

/-- An admin whose row goes is one that was removed. -/
theorem Consistent.remove (h : Consistent s) (caller : Option UserId) (target_uid : UserId) :
    Keeps s (s.write group_id caller (.removal target_uid)
      (s.st.pg.remove_group_member group_id target_uid)) := by
  refine ⟨⟨?_, ?_, ?_⟩, ?_⟩
  · intro row hrow
    exact h.groups row (database.mem_remove_group_member.mp hrow).1
  · intro g u hr
    rcases removed_write.mp hr with hr | ⟨_, _, role, hrow⟩
    · exact h.known g u hr
    · exact h.groups _ hrow
  · intro g u hr hadmin
    obtain ⟨hrow, hother⟩ := database.mem_remove_group_member.mp hadmin
    rcases removed_write.mp hr with hr | ⟨rfl, hchange, _⟩
    · exact h.removed g u hr hrow
    · obtain rfl := Change.removal.inj hchange
      exact hother ⟨rfl, rfl⟩
  · rintro g u (hv | hv)
    · by_cases hkey : g = group_id ∧ u = target_uid
      · obtain ⟨rfl, rfl⟩ := hkey
        exact .inr (removed_write.mpr (.inr ⟨rfl, rfl, .admin, hv⟩))
      · exact .inl (database.mem_remove_group_member.mpr ⟨hv, hkey⟩)
    · exact .inr (removed_write.mpr (.inl hv))

end Tables

/-! ## Where a request stands -/

/-- What is known of a request at each of its calls, and at its end. -/
inductive Stage (services : Services) (s : Shared) : GroupRequest → GroupsCoroutine → Prop
  | create {n : GroupRequest} {group_id : ConvId} {name : String} {creator_id : UserId}
    {member_ids : List UserId} :
    Stage services s n (create_group_insert group_id name creator_id member_ids)
  | fill {n : GroupRequest} {group_id : ConvId} {res : Response} (user_ids : List UserId) :
    Stage services s n (.each (user_ids.map (.sadd_group_member group_id)) (.ret res))
  | check_rename {n : GroupRequest} {group_id : ConvId} {caller_id : UserId} {name : String}
    (hcaller : caller services n = some caller_id) :
    Stage services s n (when_admin group_id caller_id (rename_group_update group_id name))
  | rename {n : GroupRequest} {group_id : ConvId} {caller_id : UserId} {name : String}
    (hcaller : caller services n = some caller_id) (hvetted : Vetted s group_id caller_id) :
    Stage services s n (rename_group_update group_id name)
  | check_insert {n : GroupRequest} {group_id : ConvId} {caller_id new_uid : UserId}
    (hcaller : caller services n = some caller_id) :
    Stage services s n (when_admin group_id caller_id (add_member_insert group_id new_uid))
  | insert {n : GroupRequest} {group_id : ConvId} {caller_id new_uid : UserId}
    (hcaller : caller services n = some caller_id) (hvetted : Vetted s group_id caller_id) :
    Stage services s n (add_member_insert group_id new_uid)
  | check_remove {n : GroupRequest} {group_id : ConvId} {caller_id target_uid : UserId}
    (hcaller : caller services n = some caller_id) :
    Stage services s n (remove_member_check group_id caller_id target_uid)
  | remove {n : GroupRequest} {group_id : ConvId} {caller_id target_uid : UserId}
    (hcaller : caller services n = some caller_id)
    (hvetted : caller_id = target_uid ∨ Vetted s group_id caller_id) :
    Stage services s n (remove_member_delete group_id target_uid)
  | clear {n : GroupRequest} {group_id : ConvId} {target_uid : UserId} :
    Stage services s n (remove_member_clear group_id target_uid)
  | replied {n : GroupRequest} {res : Response} : Stage services s n (.ret res)
  | raised {n : GroupRequest} : Stage services s n .throw

section Stages

variable {services : Services} {s s' : Shared} {n : GroupRequest} {x : GroupsCoroutine}

theorem Stage.mono (h : Stage services s n x) (hk : Keeps s s') : Stage services s' n x := by
  cases h with
  | create => exact .create
  | fill user_ids => exact .fill user_ids
  | check_rename hcaller => exact .check_rename hcaller
  | rename hcaller hvetted => exact .rename hcaller (hk.vetted _ _ hvetted)
  | check_insert hcaller => exact .check_insert hcaller
  | insert hcaller hvetted => exact .insert hcaller (hk.vetted _ _ hvetted)
  | check_remove hcaller => exact .check_remove hcaller
  | remove hcaller hvetted => exact .remove hcaller (hvetted.imp_right (hk.vetted _ _))
  | clear => exact .clear
  | replied => exact .replied
  | raised => exact .raised

theorem stage_with_user {k : UserId → GroupsCoroutine}
    (h : ∀ u, caller services n = some u → Stage services s n (k u)) :
    Stage services s n (with_user services n.req k) := by
  unfold with_user
  split
  · exact .replied
  · rename_i u hu
    exact h u hu

theorem stage_with_body {req : Request} {k : Json → GroupsCoroutine}
    (h : ∀ body, Stage services s n (k body)) : Stage services s n (with_body services req k) := by
  unfold with_body
  split
  · exact .replied
  · exact h _

theorem stage_of {α : Type} {a : Option α} {k : α → GroupsCoroutine}
    (h : ∀ v, Stage services s n (k v)) : Stage services s n (.of a k) := by
  unfold Coroutine.of
  split
  · exact .raised
  · exact h _

theorem stage_with_number {text error : String} {k : UInt64 → GroupsCoroutine}
    (h : ∀ id, Stage services s n (k id)) : Stage services s n (with_number text error k) := by
  unfold with_number
  split
  · exact .replied
  · exact h _

theorem stage_with_id {params : PathParams} {name error : String} {k : UInt64 → GroupsCoroutine}
    (h : ∀ id, Stage services s n (k id)) : Stage services s n (with_id params name error k) :=
  stage_of fun _ => stage_with_number h

theorem stage_serve (n : GroupRequest) : Stage services s n (serve services n) := by
  cases n with
  | create req gen =>
    refine stage_with_user fun u _ => stage_with_body fun body => stage_of fun name => ?_
    split
    · exact .replied
    · exact stage_of fun _ => .create
  | rename req params =>
    refine stage_with_user fun u hu => stage_with_id fun group_id => ?_
    refine stage_with_body fun body => stage_of fun name => ?_
    split
    · exact .replied
    · exact .check_rename hu
  | add req params =>
    refine stage_with_user fun u hu => stage_with_id fun group_id => ?_
    refine stage_with_body fun body => stage_of fun uid_str => ?_
    split
    · exact .replied
    · exact stage_with_number fun new_uid => .check_insert hu
  | remove req params =>
    refine stage_with_user fun u hu => stage_with_id fun group_id => ?_
    refine stage_with_id fun target_uid => ?_
    split
    · rename_i heq
      exact .remove hu (.inl heq)
    · exact .check_remove hu

end Stages

/-! ## One step of a request -/

section Steps

variable {services : Services} {s s' : Shared} {n : GroupRequest} {now : Option String}
  {group_id : ConvId}

theorem exec_insert_group {name : String} {creator_id : UserId} {member_ids : List UserId}
    {answer : Option String}
    (h : exec services n now (.insert_group group_id name creator_id member_ids) s =
      some (answer, s')) :
    answer = none ∧ s' = s ∨ ∃ created_at pg, answer = some created_at ∧
      s.st.pg.create_group group_id creator_id member_ids = some pg ∧
      s' = { s with
        st := { s.st with pg := pg }
        name := Function.update s.name group_id name } := by
  rcases transaction_eq (Option.some.inj h) with ⟨_, hnone⟩ | ⟨v, _, rfl, hafter⟩
  · exact .inl hnone
  · obtain ⟨pg, hpg, rfl⟩ := Option.map_eq_some_iff.mp hafter
    exact .inr ⟨v, pg, rfl, hpg, rfl⟩

/-- The check changes nothing, and lets an admin through. -/
theorem exec_select_role {caller_id : UserId} {answer : Option (Option Role)}
    (h : exec services n now (.select_role group_id caller_id) s = some (answer, s')) :
    s' = s ∧ (answer = some (some .admin) → s.st.is_admin group_id caller_id) := by
  rcases transaction_eq (Option.some.inj h) with ⟨_, rfl, rfl⟩ | ⟨v, hnow, rfl, hafter⟩
  · refine ⟨rfl, ?_⟩
    rintro ⟨⟩
  · obtain rfl := Option.some.inj hafter
    obtain ⟨_, _, rfl⟩ := Option.map_eq_some_iff.mp hnow
    refine ⟨rfl, fun hrole => ?_⟩
    exact role_of_eq_some (Option.some.inj hrole)

/-- A statement that no constraint refuses commits if its transaction has a time. -/
theorem transaction_update {answer : Option Unit} {after : Shared}
    (h : transaction s (now.map fun _ => ()) (some after) = (answer, s')) :
    now = none ∧ answer = none ∧ s' = s ∨ now.isSome ∧ answer = some () ∧ s' = after := by
  rcases transaction_eq h with ⟨hnow | ⟨⟨⟩⟩, rfl, rfl⟩ | ⟨v, hnow, rfl, hafter⟩
  · exact .inl ⟨Option.map_eq_none_iff.mp hnow, rfl, rfl⟩
  · obtain ⟨_, rfl, _⟩ := Option.map_eq_some_iff.mp hnow
    exact .inr ⟨rfl, rfl, (Option.some.inj hafter).symm⟩

theorem exec_update_name {name : String} {answer : Option Unit}
    (h : exec services n now (.update_name group_id name) s = some (answer, s')) :
    now = none ∧ answer = none ∧ s' = s ∨ now.isSome ∧ answer = some () ∧
      s' = (s.update_name group_id name).write group_id (caller services n) (.rename name)
        s.st.pg :=
  transaction_update (Option.some.inj h)

/-- A write commits if its transaction has a time and no constraint refuses it. -/
theorem exec_insert_member {new_uid : UserId} {answer : Option Unit}
    (h : exec services n now (.insert_member group_id new_uid) s = some (answer, s')) :
    (now = none ∨ s.st.pg.insert_group_member group_id new_uid .member = none) ∧
      answer = none ∧ s' = s ∨
    ∃ pg, now.isSome ∧ s.st.pg.insert_group_member group_id new_uid .member = some pg ∧
      answer = some () ∧
      s' = s.write group_id (caller services n) (.insertion new_uid) pg := by
  rcases transaction_eq (Option.some.inj h) with ⟨hnow, rfl, rfl⟩ | ⟨v, hnow, rfl, hafter⟩
  · exact .inl ⟨hnow.imp Option.map_eq_none_iff.mp Option.map_eq_none_iff.mp, rfl, rfl⟩
  · obtain ⟨_, rfl, _⟩ := Option.map_eq_some_iff.mp hnow
    obtain ⟨pg, hpg, rfl⟩ := Option.map_eq_some_iff.mp hafter
    exact .inr ⟨pg, rfl, hpg, rfl, rfl⟩

theorem exec_delete_member {target_uid : UserId} {answer : Option Unit}
    (h : exec services n now (.delete_member group_id target_uid) s = some (answer, s')) :
    now = none ∧ answer = none ∧ s' = s ∨ now.isSome ∧ answer = some () ∧
      s' = s.write group_id (caller services n) (.removal target_uid)
        (s.st.pg.remove_group_member group_id target_uid) :=
  transaction_update (Option.some.inj h)

/-- What follows the check of a role. -/
theorem stage_checked {caller_id : UserId} {k : GroupsCoroutine} {answer : Option (Option Role)}
    {resume : Option (Option Role) → GroupsCoroutine}
    (hx : when_admin group_id caller_id k = .await (.select_role group_id caller_id) resume)
    (hk : answer = some (some .admin) → Stage services s n k) :
    Stage services s n (resume answer) := by
  unfold when_admin at hx
  obtain rfl := eq_of_heq (Coroutine.await.inj hx).2
  dsimp only
  split
  · exact .replied
  · exact hk rfl
  · exact .replied

/-- A step of a request keeps what is known of all of them. -/
theorem stage_step {call : GroupsCall} {resume : call.Answer → GroupsCoroutine}
    {answer : call.Answer} (h : Consistent s) (hstage : Stage services s n (.await call resume))
    (hexec : exec services n now call s = some (answer, s')) :
    Keeps s s' ∧ Stage services s' n (resume answer) := by
  generalize hx : Coroutine.await call resume = x at hstage
  cases hstage with
  | create =>
    cases hx
    rcases exec_insert_group hexec with ⟨rfl, rfl⟩ | ⟨created_at, pg, rfl, hpg, rfl⟩
    · exact ⟨h.keeps, .replied⟩
    · exact ⟨h.create hpg _, .fill (_ :: _)⟩
  | fill user_ids =>
    cases user_ids with
    | nil => cases hx
    | cons user_id user_ids =>
      cases hx
      obtain ⟨rfl, rfl⟩ := Prod.mk.inj (Option.some.inj hexec)
      refine ⟨h.keeps_of_eq ?_ ?_ rfl, .fill user_ids⟩
      · exact congrArg Postgres.groups (database.sadd_pg _ _ _)
      · exact congrArg Postgres.group_members (database.sadd_pg _ _ _)
  | check_rename hcaller =>
    cases hx
    obtain ⟨rfl, hrole⟩ := exec_select_role hexec
    exact ⟨h.keeps, stage_checked rfl fun hadmin => .rename hcaller (.inl (hrole hadmin))⟩
  | rename hcaller hvetted =>
    cases hx
    rcases exec_update_name hexec with ⟨_, rfl, rfl⟩ | ⟨_, rfl, rfl⟩
    · exact ⟨h.keeps, .replied⟩
    · exact ⟨h.rename _ _, .replied⟩
  | check_insert hcaller =>
    cases hx
    obtain ⟨rfl, hrole⟩ := exec_select_role hexec
    exact ⟨h.keeps, stage_checked rfl fun hadmin => .insert hcaller (.inl (hrole hadmin))⟩
  | insert hcaller hvetted =>
    cases hx
    rcases exec_insert_member hexec with ⟨_, rfl, rfl⟩ | ⟨pg, _, hpg, rfl, rfl⟩
    · exact ⟨h.keeps, .replied⟩
    · exact ⟨h.insert _ hpg, .fill [_]⟩
  | check_remove hcaller =>
    cases hx
    obtain ⟨rfl, hrole⟩ := exec_select_role hexec
    refine ⟨h.keeps, ?_⟩
    dsimp only
    split
    · exact .remove hcaller (.inr (.inl (hrole rfl)))
    · exact .replied
  | remove hcaller hvetted =>
    cases hx
    rcases exec_delete_member hexec with ⟨_, rfl, rfl⟩ | ⟨_, rfl, rfl⟩
    · exact ⟨h.keeps, .replied⟩
    · exact ⟨h.remove _ _, .clear⟩
  | clear =>
    cases hx
    obtain ⟨rfl, rfl⟩ := Prod.mk.inj (Option.some.inj hexec)
    exact ⟨h.keeps_of_eq rfl rfl rfl, .replied⟩
  | replied => cases hx
  | raised => cases hx

end Steps

/-! ## The invariant of a run -/

/-- The tables are consistent, and each request is at one of its stages. -/
def Sound (services : Services) : State → Prop :=
  Holds Consistent fun s _ n x => Stage services s n x

section Runs

variable {services : Services} {s s' : State}

theorem sound_start : Sound services (server services).machine.start :=
  holds_start _ consistent_empty

theorem Event.keeps {e : Event} {shared shared' : Shared} (h : Consistent shared)
    (henv : e.apply shared = some shared') : Keeps shared shared' := by
  obtain ⟨user_id⟩ := e
  obtain ⟨pg, hpg, rfl⟩ := Option.map_eq_some_iff.mp henv
  unfold Postgres.insert_user at hpg
  split at hpg
  · cases hpg
  · obtain rfl := Option.some.inj hpg
    exact h.keeps_of_eq rfl rfl rfl

/-- Every step of the server keeps the invariant, whatever the requests do. -/
theorem sound_step {a : Label} (h : Sound services s)
    (hstep : (server services).step s a = some s') : Sound services s' := by
  cases turn_of_step hstep with
  | spawn n => exact h.spawn (stage_serve n)
  | env henv =>
    have hk := Event.keeps h.shared henv
    exact h.env hk.consistent fun _ _ _ _ hstage => hstage.mono hk
  | @resume i now n call resume answer shared htask hexec =>
    obtain ⟨hk, hnext⟩ := stage_step h.shared (h.task i n _ htask) hexec
    exact h.resume hk.consistent hnext fun _ _ _ _ _ hother => hother.mono hk

end Runs

/-! ## A small server -/

/-- The token of a user is his id, and every body has all members. -/
def small_services : Services where
  verify := from_chars
  issue := fun _ => "access"
  parse := fun _ => some (.object [("member_ids", .array [.string "2"]), ("name", .string "n"),
    ("user_id", .string "3")])

def request_of (authorization : String) : Request :=
  { method := .post, target := "/groups", authorization := authorization }

/-- The users 1, 2 and 3, and a group of 1 and 2 with 1 as its admin. -/
def a_group : List Label :=
  [.env (.register 1), .env (.register 2), .env (.register 3),
    .spawn (.create (request_of "Bearer 1") { snowflake := 9 }), .resume 0 (some "now"),
    .resume 0 none, .resume 0 none]

/-- The admin asks to add 3. -/
def addition : Label := .spawn (.add (request_of "Bearer 1") [("id", "9")])

end loomic.group_server
