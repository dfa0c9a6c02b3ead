-- The tables of Postgres that say who belongs to what, with the transactions
-- that the server runs on them, and the sets of group members in Redis.
import Loomic.Lib.Machine
import Loomic.Frame

open loomic.frame machines

namespace loomic.database

inductive Role
  | admin
  | member
  deriving DecidableEq, Repr

/-- The rows of the tables, oldest first. The foreign keys and primary keys of the migrations
are kept by the transactions below. -/
structure Postgres where
  users : List UserId
  conversations : List ConvId
  conv_members : List (ConvId × UserId)
  groups : List ConvId
  group_members : List (ConvId × UserId × Role)

def Postgres.empty : Postgres :=
  { users := [], conversations := [], conv_members := [], groups := [], group_members := [] }

/-- A row for the user in `conv_members`. -/
def Postgres.in_conv (db : Postgres) (conv_id : ConvId) (user_id : UserId) : Prop :=
  (conv_id, user_id) ∈ db.conv_members

/-- A row for the user in `group_members`. -/
def Postgres.in_group (db : Postgres) (group_id : ConvId) (user_id : UserId) : Prop :=
  ∃ role, (group_id, user_id, role) ∈ db.group_members

instance (db : Postgres) (conv_id : ConvId) (user_id : UserId) :
    Decidable (db.in_conv conv_id user_id) := by unfold Postgres.in_conv; infer_instance

instance (db : Postgres) (group_id : ConvId) (user_id : UserId) :
    Decidable (db.in_group group_id user_id) :=
  decidable_of_iff (∃ row ∈ db.group_members, row.1 = group_id ∧ row.2.1 = user_id) (by
    constructor
    · rintro ⟨⟨g, u, role⟩, hrow, rfl, rfl⟩; exact ⟨role, hrow⟩
    · rintro ⟨role, hrow⟩; exact ⟨_, hrow, rfl, rfl⟩)

/-! ## The transactions -/

/-- `INSERT INTO users`. -/
def Postgres.insert_user (db : Postgres) (user_id : UserId) : Option Postgres :=
  if user_id ∈ db.users then none else some { db with users := db.users ++ [user_id] }

/-- `INSERT INTO conv_members ... ON CONFLICT DO NOTHING`. The foreign keys refuse a user or a
conversation that does not exist, and the transaction is rolled back. -/
def Postgres.insert_conv_member (db : Postgres) (conv_id : ConvId) (user_id : UserId) :
    Option Postgres :=
  if user_id ∉ db.users ∨ conv_id ∉ db.conversations then none
  else if db.in_conv conv_id user_id then some db
  else some { db with conv_members := db.conv_members ++ [(conv_id, user_id)] }

/-- `INSERT INTO conversations (id) VALUES ($1) ON CONFLICT DO NOTHING`. -/
def Postgres.ensure_conversation (db : Postgres) (conv_id : ConvId) : Postgres :=
  if conv_id ∈ db.conversations then db
  else { db with conversations := db.conversations ++ [conv_id] }

/-- `Session::upsert_conv_members`. -/
def Postgres.upsert_conv_members (db : Postgres) (conv_id : ConvId) (user_a user_b : UserId) :
    Option Postgres :=
  ((db.ensure_conversation conv_id).insert_conv_member conv_id user_a).bind fun db =>
    db.insert_conv_member conv_id user_b

theorem insert_conv_member_eq_some {db db' : Postgres} {conv_id : ConvId} {user_id : UserId}
    (h : db.insert_conv_member conv_id user_id = some db') :
    user_id ∈ db.users ∧ conv_id ∈ db.conversations ∧ db'.users = db.users ∧
      db'.conversations = db.conversations ∧ db'.group_members = db.group_members ∧
      ∀ c u, db'.in_conv c u ↔ db.in_conv c u ∨ c = conv_id ∧ u = user_id := by
  unfold Postgres.insert_conv_member at h
  split_ifs at h with hkey hrow <;> cases h
  · refine ⟨by tauto, by tauto, rfl, rfl, rfl, fun c u => ⟨.inl, ?_⟩⟩
    rintro (hc | ⟨rfl, rfl⟩)
    · exact hc
    · exact hrow
  · refine ⟨by tauto, by tauto, rfl, rfl, rfl, fun c u => ?_⟩
    simp [Postgres.in_conv]

theorem insert_conv_member_isSome {db : Postgres} {conv_id : ConvId} {user_id : UserId}
    (hu : user_id ∈ db.users) (hc : conv_id ∈ db.conversations) :
    ∃ db', db.insert_conv_member conv_id user_id = some db' := by
  unfold Postgres.insert_conv_member
  rw [if_neg (by simp [hu, hc])]
  split_ifs <;> exact ⟨_, rfl⟩

theorem ensure_conversation_spec (db : Postgres) (conv_id : ConvId) :
    conv_id ∈ (db.ensure_conversation conv_id).conversations ∧
      (db.ensure_conversation conv_id).users = db.users ∧
      (db.ensure_conversation conv_id).conv_members = db.conv_members ∧
      (db.ensure_conversation conv_id).group_members = db.group_members := by
  unfold Postgres.ensure_conversation
  split_ifs with h <;> simp [h]

/-- What the upsert adds: the rows of both users, who must exist. -/
theorem upsert_conv_members_eq_some {db db' : Postgres} {conv_id : ConvId} {a b : UserId}
    (h : db.upsert_conv_members conv_id a b = some db') :
    a ∈ db.users ∧ b ∈ db.users ∧ db'.users = db.users ∧
      db'.group_members = db.group_members ∧
      ∀ c u, db'.in_conv c u ↔ db.in_conv c u ∨ c = conv_id ∧ (u = a ∨ u = b) := by
  obtain ⟨db₁, h₁, h₂⟩ := Option.bind_eq_some_iff.mp h
  obtain ⟨_, hu₀, hm₀, hg₀⟩ := ensure_conversation_spec db conv_id
  obtain ⟨ha, _, hu₁, _, hg₁, hrows₁⟩ := insert_conv_member_eq_some h₁
  obtain ⟨hb, _, hu₂, _, hg₂, hrows₂⟩ := insert_conv_member_eq_some h₂
  rw [hu₀] at ha hu₁
  rw [hu₁] at hb hu₂
  refine ⟨ha, hb, hu₂, hg₂.trans (hg₁.trans hg₀), fun c u => ?_⟩
  rw [hrows₂, hrows₁, Postgres.in_conv, hm₀]
  tauto

theorem upsert_conv_members_isSome {db : Postgres} {a b : UserId} (conv_id : ConvId)
    (ha : a ∈ db.users) (hb : b ∈ db.users) :
    ∃ db', db.upsert_conv_members conv_id a b = some db' := by
  obtain ⟨hc, hu₀, _⟩ := ensure_conversation_spec db conv_id
  obtain ⟨db₁, h₁⟩ := insert_conv_member_isSome (hu₀ ▸ ha) hc
  obtain ⟨_, _, hu₁, hc₁, _⟩ := insert_conv_member_eq_some h₁
  have hb₁ : b ∈ db₁.users := by rw [hu₁, hu₀]; exact hb
  obtain ⟨db₂, h₂⟩ := insert_conv_member_isSome hb₁ (hc₁ ▸ hc)
  exact ⟨db₂, Option.bind_eq_some_iff.mpr ⟨db₁, h₁, h₂⟩⟩

/-- The transaction of `POST /conversations`. -/
def Postgres.create_conversation (db : Postgres) (conv_id : ConvId) (members : List UserId) :
    Option Postgres :=
  if conv_id ∈ db.conversations then none
  else members.foldlM (fun db user_id => db.insert_conv_member conv_id user_id)
    { db with conversations := db.conversations ++ [conv_id] }

/-- `INSERT INTO group_members ... ON CONFLICT DO NOTHING`. -/
def Postgres.insert_group_member (db : Postgres) (group_id : ConvId) (user_id : UserId)
    (role : Role) : Option Postgres :=
  if user_id ∉ db.users ∨ group_id ∉ db.groups then none
  else if db.in_group group_id user_id then some db
  else some { db with group_members := db.group_members ++ [(group_id, user_id, role)] }

/-- The transaction of `POST /groups`: the creator is the admin. -/
def Postgres.create_group (db : Postgres) (group_id : ConvId) (creator_id : UserId)
    (member_ids : List UserId) : Option Postgres :=
  if group_id ∈ db.groups then none
  else (({ db with groups := db.groups ++ [group_id] } : Postgres).insert_group_member group_id
    creator_id .admin).bind fun db =>
      member_ids.foldlM (fun db user_id => db.insert_group_member group_id user_id .member) db

/-- `DELETE FROM group_members WHERE group_id=$1 AND user_id=$2`. -/
def Postgres.remove_group_member (db : Postgres) (group_id : ConvId) (user_id : UserId) :
    Postgres :=
  { db with group_members :=
      db.group_members.filter fun row => ¬ (row.1 = group_id ∧ row.2.1 = user_id) }

theorem insert_group_member_eq_some {db db' : Postgres} {group_id : ConvId} {user_id : UserId}
    {role : Role} (h : db.insert_group_member group_id user_id role = some db') :
    db'.groups = db.groups ∧ group_id ∈ db.groups ∧
      (∀ row, row ∈ db'.group_members ↔
        row ∈ db.group_members ∨ row = (group_id, user_id, role) ∧ ¬ db.in_group group_id user_id) ∧
      ∀ g u, db'.in_group g u ↔ db.in_group g u ∨ g = group_id ∧ u = user_id := by
  unfold Postgres.insert_group_member at h
  split_ifs at h with hkey hrow <;> cases h
  · refine ⟨rfl, by tauto, by tauto, fun g u => ⟨.inl, ?_⟩⟩
    rintro (hg | ⟨rfl, rfl⟩)
    · exact hg
    · exact hrow
  · refine ⟨rfl, by tauto, fun row => ?_, fun g u => ?_⟩
    · simp [hrow]
    · simp only [Postgres.in_group, List.mem_append, List.mem_singleton, Prod.mk.injEq]
      constructor
      · rintro ⟨r, hmem | ⟨rfl, rfl, rfl⟩⟩
        · exact .inl ⟨r, hmem⟩
        · exact .inr ⟨rfl, rfl⟩
      · rintro (⟨r, hmem⟩ | ⟨rfl, rfl⟩)
        · exact ⟨r, .inl hmem⟩
        · exact ⟨role, .inr ⟨rfl, rfl, rfl⟩⟩

/-- The members of a new group, one after the other. -/
theorem insert_group_members_eq_some {db db' : Postgres} {group_id : ConvId}
    {member_ids : List UserId}
    (h : member_ids.foldlM (fun db user_id => db.insert_group_member group_id user_id .member) db =
      some db') :
    db'.groups = db.groups ∧
      (∀ row, row.1 ≠ group_id → (row ∈ db'.group_members ↔ row ∈ db.group_members)) ∧
      ∀ g u, db'.in_group g u ↔ db.in_group g u ∨ g = group_id ∧ u ∈ member_ids := by
  induction member_ids generalizing db with
  | nil =>
    obtain rfl := Option.some.inj h
    simp
  | cons user_id member_ids ih =>
    rw [List.foldlM_cons] at h
    obtain ⟨db₁, h₁, h₂⟩ := Option.bind_eq_some_iff.mp h
    obtain ⟨hgroups₁, _, hrows₁, hmem₁⟩ := insert_group_member_eq_some h₁
    obtain ⟨hgroups, hrows, hmem⟩ := ih h₂
    refine ⟨hgroups.trans hgroups₁, fun row hrow => ?_, fun g u => ?_⟩
    · rw [hrows row hrow, hrows₁]
      constructor
      · rintro (hold | ⟨rfl, _⟩)
        · exact hold
        · exact absurd rfl hrow
      · exact .inl
    · rw [hmem, hmem₁, List.mem_cons]
      tauto

/-- A new group has its creator and the users of the list, and other groups keep their rows. -/
theorem create_group_eq_some {db db' : Postgres} {group_id : ConvId} {creator_id : UserId}
    {member_ids : List UserId} (h : db.create_group group_id creator_id member_ids = some db') :
    group_id ∉ db.groups ∧ db'.groups = db.groups ++ [group_id] ∧
      (∀ row, row.1 ≠ group_id → (row ∈ db'.group_members ↔ row ∈ db.group_members)) ∧
      ∀ g u, db'.in_group g u ↔ db.in_group g u ∨ g = group_id ∧ u ∈ creator_id :: member_ids := by
  unfold Postgres.create_group at h
  split_ifs at h with hnew
  obtain ⟨db₁, h₁, h₂⟩ := Option.bind_eq_some_iff.mp h
  obtain ⟨hgroups₁, _, hrows₁, hmem₁⟩ := insert_group_member_eq_some h₁
  obtain ⟨hgroups, hrows, hmem⟩ := insert_group_members_eq_some h₂
  refine ⟨hnew, hgroups.trans hgroups₁, fun row hrow => ?_, fun g u => ?_⟩
  · rw [hrows row hrow, hrows₁]
    constructor
    · rintro (hold | ⟨rfl, _⟩)
      · exact hold
      · exact absurd rfl hrow
    · exact .inl
  · rw [hmem, hmem₁, List.mem_cons, Postgres.in_group, Postgres.in_group]
    tauto

theorem mem_remove_group_member {db : Postgres} {group_id : ConvId} {user_id : UserId}
    {row : ConvId × UserId × Role} :
    row ∈ (db.remove_group_member group_id user_id).group_members ↔
      row ∈ db.group_members ∧ ¬ (row.1 = group_id ∧ row.2.1 = user_id) := by
  unfold Postgres.remove_group_member
  rw [List.mem_filter, decide_eq_true_eq]

theorem in_group_remove_group_member {db : Postgres} {group_id g : ConvId} {user_id u : UserId} :
    (db.remove_group_member group_id user_id).in_group g u ↔
      db.in_group g u ∧ ¬ (g = group_id ∧ u = user_id) := by
  simp only [Postgres.in_group, mem_remove_group_member]
  constructor
  · rintro ⟨role, hrow, hother⟩
    exact ⟨⟨role, hrow⟩, hother⟩
  · rintro ⟨⟨role, hrow⟩, hother⟩
    exact ⟨role, hrow, hother⟩

/-! ## The requests that change the tables -/

/-- Postgres, and the Redis sets `group:{id}:members`. -/
structure Stores where
  pg : Postgres
  group_set : ConvId → List UserId

def Stores.sadd (st : Stores) (group_id : ConvId) (user_id : UserId) : Stores :=
  if user_id ∈ st.group_set group_id then st
  else { st with group_set :=
    Function.update st.group_set group_id (st.group_set group_id ++ [user_id]) }

def Stores.srem (st : Stores) (group_id : ConvId) (user_id : UserId) : Stores :=
  { st with group_set :=
    Function.update st.group_set group_id ((st.group_set group_id).filter (· ≠ user_id)) }

theorem mem_sadd {st : Stores} {group_id g : ConvId} {user_id u : UserId} :
    u ∈ (st.sadd group_id user_id).group_set g ↔
      u ∈ st.group_set g ∨ g = group_id ∧ u = user_id := by
  unfold Stores.sadd
  split_ifs with hmem
  · refine ⟨.inl, ?_⟩
    rintro (hu | ⟨rfl, rfl⟩)
    · exact hu
    · exact hmem
  · by_cases hg : g = group_id
    · subst hg
      simp
    · simp [hg]

theorem mem_srem {st : Stores} {group_id g : ConvId} {user_id u : UserId} :
    u ∈ (st.srem group_id user_id).group_set g ↔
      u ∈ st.group_set g ∧ ¬ (g = group_id ∧ u = user_id) := by
  unfold Stores.srem
  by_cases hg : g = group_id
  · subst hg
    simp
  · simp [hg]

@[simp] theorem sadd_pg (st : Stores) (group_id : ConvId) (user_id : UserId) :
    (st.sadd group_id user_id).pg = st.pg := by
  unfold Stores.sadd
  split_ifs <;> rfl

/-- The requests, each with the ids that it is given or that the generator gives it. -/
inductive Request
  | register (user_id : UserId)
  | create_conversation (conv_id : ConvId) (creator_id : UserId) (members : List UserId)
  | direct_send (sender_id recipient_id : UserId)
  | create_group (group_id : ConvId) (creator_id : UserId) (member_ids : List UserId)
  | add_member (group_id : ConvId) (caller_id new_uid : UserId)
  | remove_member (group_id : ConvId) (caller_id target_uid : UserId)

def Stores.is_admin (st : Stores) (group_id : ConvId) (user_id : UserId) : Prop :=
  (group_id, user_id, Role.admin) ∈ st.pg.group_members

instance (st : Stores) (group_id : ConvId) (user_id : UserId) :
    Decidable (st.is_admin group_id user_id) := by unfold Stores.is_admin; infer_instance

/-- A request that succeeds, with its Redis commands. -/
def Stores.request (st : Stores) : Request → Option Stores
  | .register user_id => (st.pg.insert_user user_id).map ({ st with pg := · })
  | .create_conversation conv_id creator_id members =>
    (st.pg.create_conversation conv_id (creator_id :: members)).map ({ st with pg := · })
  | .direct_send sender_id recipient_id =>
    (st.pg.upsert_conv_members (min sender_id recipient_id) sender_id recipient_id).map
      ({ st with pg := · })
  | .create_group group_id creator_id member_ids =>
    (st.pg.create_group group_id creator_id member_ids).map fun pg =>
      (creator_id :: member_ids).foldl (·.sadd group_id ·) { st with pg := pg }
  | .add_member group_id caller_id new_uid =>
    if st.is_admin group_id caller_id then
      (st.pg.insert_group_member group_id new_uid .member).map fun pg =>
        ({ st with pg := pg } : Stores).sadd group_id new_uid
    else none
  | .remove_member group_id caller_id target_uid =>
    if caller_id = target_uid ∨ st.is_admin group_id caller_id then
      some (({ st with pg := st.pg.remove_group_member group_id target_uid } : Stores).srem
        group_id target_uid)
    else none

/-- The stores, from empty tables on. -/
def stores : Machine Stores Request where
  start := { pg := .empty, group_set := fun _ => [] }
  step := Stores.request

/-! ## The members of a conversation -/

/-- No conversation and no row of a member is lost, and a new row is one of a conversation. -/
structure Postgres.Extends (db db' : Postgres) : Prop where
  conversations : ∀ c ∈ db.conversations, c ∈ db'.conversations
  kept : ∀ c u, db.in_conv c u → db'.in_conv c u
  rows : ∀ c u, db'.in_conv c u → db.in_conv c u ∨ c ∈ db'.conversations

theorem extends_trans {db db₁ db₂ : Postgres} (h : db.Extends db₁) (h' : db₁.Extends db₂) :
    db.Extends db₂ := by
  refine ⟨fun c hc => h'.conversations c (h.conversations c hc),
    fun c u hu => h'.kept c u (h.kept c u hu), fun c u hu => ?_⟩
  rcases h'.rows c u hu with hold | hnew
  · exact (h.rows c u hold).imp_right (h'.conversations c)
  · exact .inr hnew

theorem extends_of_eq {db db' : Postgres} (hc : db'.conversations = db.conversations)
    (hm : db'.conv_members = db.conv_members) : db.Extends db' := by
  refine ⟨fun c h => hc ▸ h, fun c u h => ?_, fun c u h => .inl ?_⟩
  · rwa [Postgres.in_conv, hm]
  · rwa [Postgres.in_conv, hm] at h

theorem extends_refl (db : Postgres) : db.Extends db := extends_of_eq rfl rfl

theorem insert_conv_member_extends {db db' : Postgres} {conv_id : ConvId} {user_id : UserId}
    (h : db.insert_conv_member conv_id user_id = some db') : db.Extends db' := by
  obtain ⟨_, hc, _, hconv, _, hrows⟩ := insert_conv_member_eq_some h
  refine ⟨fun c hmem => hconv ▸ hmem, fun c u hu => (hrows c u).mpr (.inl hu), fun c u hu => ?_⟩
  rcases (hrows c u).mp hu with hold | ⟨rfl, _⟩
  · exact .inl hold
  · exact .inr (hconv ▸ hc)

theorem new_conversation_extends (db : Postgres) (conv_id : ConvId) :
    db.Extends { db with conversations := db.conversations ++ [conv_id] } :=
  ⟨fun _ h => List.mem_append_left _ h, fun _ _ h => h, fun _ _ h => .inl h⟩

theorem upsert_conv_members_extends {db db' : Postgres} {conv_id : ConvId} {a b : UserId}
    (h : db.upsert_conv_members conv_id a b = some db') : db.Extends db' := by
  obtain ⟨db₁, h₁, h₂⟩ := Option.bind_eq_some_iff.mp h
  have hensure : db.Extends (db.ensure_conversation conv_id) := by
    unfold Postgres.ensure_conversation
    split
    · exact extends_refl db
    · exact new_conversation_extends db conv_id
  exact extends_trans (extends_trans hensure (insert_conv_member_extends h₁))
    (insert_conv_member_extends h₂)

/-- The rows of a list of members, one after the other. -/
theorem insert_conv_members_eq_some {db db' : Postgres} {conv_id : ConvId} {members : List UserId}
    (h : members.foldlM (fun db user_id => db.insert_conv_member conv_id user_id) db = some db') :
    db.Extends db' ∧ ∀ c u, db'.in_conv c u ↔ db.in_conv c u ∨ c = conv_id ∧ u ∈ members := by
  induction members generalizing db with
  | nil =>
    obtain rfl := Option.some.inj h
    exact ⟨extends_refl _, by simp⟩
  | cons user_id members ih =>
    rw [List.foldlM_cons] at h
    obtain ⟨db₁, h₁, h₂⟩ := Option.bind_eq_some_iff.mp h
    obtain ⟨hextends, hrows⟩ := ih h₂
    obtain ⟨_, _, _, _, _, hrows₁⟩ := insert_conv_member_eq_some h₁
    refine ⟨extends_trans (insert_conv_member_extends h₁) hextends, fun c u => ?_⟩
    rw [hrows, hrows₁, List.mem_cons]
    tauto

theorem create_conversation_eq_some {db db' : Postgres} {conv_id : ConvId} {members : List UserId}
    (h : db.create_conversation conv_id members = some db') :
    conv_id ∉ db.conversations ∧ db.Extends db' ∧
      ∀ c u, db'.in_conv c u ↔ db.in_conv c u ∨ c = conv_id ∧ u ∈ members := by
  unfold Postgres.create_conversation at h
  split_ifs at h with hnew
  obtain ⟨hextends, hrows⟩ := insert_conv_members_eq_some h
  exact ⟨hnew, extends_trans (new_conversation_extends db conv_id) hextends, hrows⟩

theorem insert_group_member_extends {db db' : Postgres} {group_id : ConvId} {user_id : UserId}
    {role : Role} (h : db.insert_group_member group_id user_id role = some db') :
    db.Extends db' := by
  unfold Postgres.insert_group_member at h
  split_ifs at h
  · obtain rfl := Option.some.inj h
    exact extends_refl _
  · obtain rfl := Option.some.inj h
    exact extends_of_eq rfl rfl

theorem insert_group_members_extends {db db' : Postgres} {group_id : ConvId}
    {member_ids : List UserId}
    (h : member_ids.foldlM (fun db user_id => db.insert_group_member group_id user_id .member) db =
      some db') : db.Extends db' := by
  induction member_ids generalizing db with
  | nil =>
    obtain rfl := Option.some.inj h
    exact extends_refl _
  | cons user_id member_ids ih =>
    rw [List.foldlM_cons] at h
    obtain ⟨db₁, h₁, h₂⟩ := Option.bind_eq_some_iff.mp h
    exact extends_trans (insert_group_member_extends h₁) (ih h₂)

theorem create_group_extends {db db' : Postgres} {group_id : ConvId} {creator_id : UserId}
    {member_ids : List UserId} (h : db.create_group group_id creator_id member_ids = some db') :
    db.Extends db' := by
  unfold Postgres.create_group at h
  split_ifs at h with hnew
  obtain ⟨db₁, h₁, h₂⟩ := Option.bind_eq_some_iff.mp h
  have hgroup : db.Extends { db with groups := db.groups ++ [group_id] } := extends_of_eq rfl rfl
  exact extends_trans (extends_trans hgroup (insert_group_member_extends h₁))
    (insert_group_members_extends h₂)

@[simp] theorem foldl_sadd_pg (st : Stores) (group_id : ConvId) (users : List UserId) :
    (users.foldl (·.sadd group_id ·) st).pg = st.pg := by
  induction users generalizing st with
  | nil => rfl
  | cons user_id users ih => rw [List.foldl_cons, ih, sadd_pg]

theorem request_extends {st st' : Stores} {r : Request} (h : st.request r = some st') :
    st.pg.Extends st'.pg := by
  cases r with
  | register user_id =>
    obtain ⟨pg, hpg, rfl⟩ := Option.map_eq_some_iff.mp h
    unfold Postgres.insert_user at hpg
    split_ifs at hpg
    obtain rfl := Option.some.inj hpg
    exact extends_of_eq rfl rfl
  | create_conversation conv_id creator_id members =>
    obtain ⟨pg, hpg, rfl⟩ := Option.map_eq_some_iff.mp h
    exact (create_conversation_eq_some hpg).2.1
  | direct_send sender_id recipient_id =>
    obtain ⟨pg, hpg, rfl⟩ := Option.map_eq_some_iff.mp h
    exact upsert_conv_members_extends hpg
  | create_group group_id creator_id member_ids =>
    obtain ⟨pg, hpg, rfl⟩ := Option.map_eq_some_iff.mp h
    rw [foldl_sadd_pg]
    exact create_group_extends hpg
  | add_member group_id caller_id new_uid =>
    dsimp only [Stores.request] at h
    split_ifs at h
    obtain ⟨pg, hpg, rfl⟩ := Option.map_eq_some_iff.mp h
    rw [sadd_pg]
    exact insert_group_member_extends hpg
  | remove_member group_id caller_id target_uid =>
    dsimp only [Stores.request] at h
    split_ifs at h
    obtain rfl := Option.some.inj h
    exact extends_of_eq rfl rfl

/-- The members are rows of conversations. -/
theorem conversation_of_row {rs : List Request} {st : Stores} (hr : stores.run rs = some st)
    {c : ConvId} {u : UserId} (h : st.pg.in_conv c u) : c ∈ st.pg.conversations := by
  have hinv : ∀ c u, st.pg.in_conv c u → c ∈ st.pg.conversations := by
    refine Machine.invariant (M := stores)
      (I := fun st => ∀ c u, st.pg.in_conv c u → c ∈ st.pg.conversations) ?_ ?_ hr
    · intro c u hrow
      cases hrow
    · intro st r st' ih hs c u hrow
      have hextends := request_extends hs
      rcases hextends.rows c u hrow with hold | hnew
      · exact hextends.conversations c (ih c u hold)
      · exact hnew
  exact hinv c u h

/-- A conversation that was created has the rows of its members from then on, and at first it
has no others. -/
theorem members_of_created {earlier later : List Request} {conv_id : ConvId} {creator_id : UserId}
    {members : List UserId} {st : Stores}
    (hr : stores.run (earlier ++ .create_conversation conv_id creator_id members :: later) =
      some st) :
    (∀ v ∈ creator_id :: members, st.pg.in_conv conv_id v) ∧
      (later = [] → ∀ v, st.pg.in_conv conv_id v → v ∈ creator_id :: members) := by
  rw [Machine.run, Machine.runFrom_append] at hr
  obtain ⟨st₀, hr₀, hr⟩ := Option.bind_eq_some_iff.mp hr
  obtain ⟨st₁, hs, hr⟩ := Option.bind_eq_some_iff.mp hr
  obtain ⟨pg, hpg, rfl⟩ := Option.map_eq_some_iff.mp hs
  obtain ⟨hnew, _, hrows⟩ := create_conversation_eq_some hpg
  constructor
  · intro v hv
    refine Machine.runFrom_invariant (M := stores) (I := fun st => st.pg.in_conv conv_id v)
      (fun st r st' hrow hs => (request_extends hs).kept conv_id v hrow) ?_ hr
    exact (hrows conv_id v).mpr (.inr ⟨rfl, hv⟩)
  · rintro rfl v hv
    obtain rfl := Option.some.inj hr
    rcases (hrows conv_id v).mp hv with hold | ⟨_, hmem⟩
    · exact absurd (conversation_of_row hr₀ hold) hnew
    · exact hmem

end loomic.database
