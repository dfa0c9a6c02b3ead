-- The conversation list (GET /conversations): the membership table is joined with itself
-- for the other member, and the groups come after it. How often a conversation is in the
-- list depends on how many other members it has.
import Mathlib.Data.List.Count
import Mathlib.Data.List.Perm.Subperm
import Mathlib.Data.List.Sort
import Loomic.Database
import Loomic.HttpAnswers

open coroutines loomic.auth_handler loomic.database loomic.frame loomic.http_handlers loomic.json
  machines
open loomic.http_server (Response)

namespace loomic.conversation_list

/-! ## The query -/

structure Activity where
  last_activity_at : Option String
  last_msg_preview : Option String

structure Profile where
  username : String
  bio : Option String
  avatar_url : Option String

/-- The other columns of the tables, and the order of the texts in the database. -/
structure Columns where
  conversation : ConvId → Activity
  user : UserId → Profile
  group : ConvId → Activity
  group_name : ConvId → String
  group_avatar : ConvId → Option String
  text_le : String → String → Bool

namespace Columns

variable (columns : Columns)

def dm_row (c : ConvId) (u : UserId) : ConversationRow where
  kind := "dm"
  id := c
  last_activity_at := (columns.conversation c).last_activity_at
  last_msg_preview := (columns.conversation c).last_msg_preview
  peer_id := u
  peer_name := (columns.user u).username
  peer_bio := (columns.user u).bio
  peer_avatar := (columns.user u).avatar_url
  group_name := ""
  group_avatar := none

/-- The columns of a peer are `NULL` and are not read. -/
def group_row (g : ConvId) : ConversationRow where
  kind := "group"
  id := g
  last_activity_at := (columns.group g).last_activity_at
  last_msg_preview := (columns.group g).last_msg_preview
  peer_id := 0
  peer_name := ""
  peer_bio := none
  peer_avatar := none
  group_name := columns.group_name g
  group_avatar := columns.group_avatar g

/-- `conv_members cm JOIN conversations c JOIN conv_members ocm JOIN users u`. -/
def dm_rows (db : Postgres) (user_id : UserId) : List ConversationRow :=
  (db.conv_members.filter (·.2 = user_id)).flatMap fun cm =>
    (db.conversations.filter (· = cm.1)).flatMap fun c =>
      (db.conv_members.filter fun ocm => ocm.1 = cm.1 ∧ ocm.2 ≠ user_id).flatMap fun ocm =>
        (db.users.filter (· = ocm.2)).map fun u => columns.dm_row c u

/-- `group_members gm JOIN groups g`. -/
def group_rows (db : Postgres) (user_id : UserId) : List ConversationRow :=
  (db.group_members.filter (·.2.1 = user_id)).flatMap fun gm =>
    (db.groups.filter (· = gm.1)).map columns.group_row

/-- `ORDER BY 3 DESC NULLS LAST`. -/
def before (a b : ConversationRow) : Bool :=
  match a.last_activity_at, b.last_activity_at with
  | _, none => true
  | none, some _ => false
  | some a, some b => columns.text_le b a

def select_conversations (db : Postgres) (user_id : UserId) : List ConversationRow :=
  (columns.dm_rows db user_id ++ columns.group_rows db user_id).insertionSort
    (columns.before · · = true)

end Columns

/-! ## The answer -/

/-- A user with a token, and what the requests of this user find outside the tables. -/
structure Server where
  services : Services
  columns : Columns
  authorization : String
  user_id : UserId
  verified : require_auth services authorization = some user_id
  unread : List (ConvId × Int)
  other : ∀ call : Call, call.Answer

def Server.answer (srv : Server) (db : Postgres) : (call : Call) → call.Answer
  | .select_conversations user_id => some (srv.columns.select_conversations db user_id)
  | .hgetall_unread _ => srv.unread
  | call => srv.other call

/-- The array of a 200 response. -/
def Server.list (srv : Server) (db : Postgres) : Option (List Json) :=
  match (list_conversations srv.services
      { method := .get, target := "/conversations", authorization := srv.authorization }
      []).run (fun _ => srv.answer db) with
  | some { status := .ok, body := .json (.array items), .. } => some items
  | _ => none

/-- The kind and the id of an item. -/
def entry_key : Json → Option (String × String)
  | .object members => match members.lookup "kind", members.lookup "id" with
    | some (.string kind), some (.string id) => some (kind, id)
    | _, _ => none
  | _ => none

def dm_key (c : ConvId) : Option (String × String) := some ("dm", toString c.toNat)

def group_key (g : ConvId) : Option (String × String) := some ("group", toString g.toNat)

/-- Each conversation and each group of the user is in the list once, and nothing else is. -/
structure OneEntryEach (srv : Server) (db : Postgres) (items : List Json) : Prop where
  conversations : ∀ c, db.in_conv c srv.user_id → (items.map entry_key).count (dm_key c) = 1
  groups : ∀ g, db.in_group g srv.user_id → (items.map entry_key).count (group_key g) = 1
  nothing_else : ∀ key ∈ items.map entry_key,
    (∃ c, db.in_conv c srv.user_id ∧ key = dm_key c) ∨
      ∃ g, db.in_group g srv.user_id ∧ key = group_key g

/-- The answer is a list with one entry for each. -/
def ListsEachOnce (srv : Server) (db : Postgres) : Prop :=
  ∃ items, srv.list db = some items ∧ OneEntryEach srv db items

/-! ## The keys of the tables -/

/-- The primary keys and the foreign keys. -/
structure Keyed (db : Postgres) : Prop where
  users : db.users.Nodup
  conversations : db.conversations.Nodup
  conv_members : db.conv_members.Nodup
  conv_rows : ∀ row ∈ db.conv_members, row.1 ∈ db.conversations ∧ row.2 ∈ db.users
  groups : db.groups.Nodup
  group_members : (db.group_members.map fun row => (row.1, row.2.1)).Nodup
  group_rows : ∀ row ∈ db.group_members, row.1 ∈ db.groups

section Keyed

variable {db db' : Postgres} {user_id : UserId} {conv_id group_id : ConvId}

theorem nodup_append_one {α : Type} {l : List α} {a : α} (h : l.Nodup) (ha : a ∉ l) :
    (l ++ [a]).Nodup := by
  rw [← List.concat_eq_append]
  exact List.Nodup.concat ha h

theorem Keyed.insert_user (h : Keyed db) (hdb : db.insert_user user_id = some db') :
    Keyed db' := by
  unfold Postgres.insert_user at hdb
  split_ifs at hdb with hnew
  obtain rfl := Option.some.inj hdb
  exact { h with
    users := nodup_append_one h.users hnew
    conv_rows := fun row hrow =>
      ⟨(h.conv_rows row hrow).1, List.mem_append_left _ (h.conv_rows row hrow).2⟩ }

theorem Keyed.new_conversation (h : Keyed db) (hnew : conv_id ∉ db.conversations) :
    Keyed { db with conversations := db.conversations ++ [conv_id] } :=
  { h with
    conversations := nodup_append_one h.conversations hnew
    conv_rows := fun row hrow =>
      ⟨List.mem_append_left _ (h.conv_rows row hrow).1, (h.conv_rows row hrow).2⟩ }

theorem Keyed.insert_conv_member (h : Keyed db)
    (hdb : db.insert_conv_member conv_id user_id = some db') : Keyed db' := by
  unfold Postgres.insert_conv_member at hdb
  split_ifs at hdb with hkey hrow
  · obtain rfl := Option.some.inj hdb
    exact h
  · obtain rfl := Option.some.inj hdb
    refine { h with conv_members := nodup_append_one h.conv_members hrow, conv_rows := ?_ }
    intro row hmem
    rcases List.mem_append.mp hmem with hmem | hmem
    · exact h.conv_rows row hmem
    · obtain rfl := List.mem_singleton.mp hmem
      tauto

theorem Keyed.insert_group_member {role : Role} (h : Keyed db)
    (hdb : db.insert_group_member group_id user_id role = some db') : Keyed db' := by
  unfold Postgres.insert_group_member at hdb
  split_ifs at hdb with hkey hrow
  · obtain rfl := Option.some.inj hdb
    exact h
  · obtain rfl := Option.some.inj hdb
    refine { h with group_members := ?_, group_rows := ?_ }
    · rw [List.map_append, List.map_singleton]
      refine nodup_append_one h.group_members fun hmem => hrow ?_
      obtain ⟨⟨g, u, r⟩, hrow', heq⟩ := List.mem_map.mp hmem
      obtain ⟨rfl, rfl⟩ := Prod.mk.inj heq
      exact ⟨r, hrow'⟩
    · intro row hmem
      rcases List.mem_append.mp hmem with hmem | hmem
      · exact h.group_rows row hmem
      · obtain rfl := List.mem_singleton.mp hmem
        tauto

/-- A list of inserts, one after the other. -/
theorem Keyed.foldlM {α : Type} {insert : Postgres → α → Option Postgres} {l : List α}
    (hinsert : ∀ db a db', Keyed db → insert db a = some db' → Keyed db') (h : Keyed db)
    (hdb : l.foldlM insert db = some db') : Keyed db' := by
  induction l generalizing db with
  | nil =>
    obtain rfl := Option.some.inj hdb
    exact h
  | cons a l ih =>
    rw [List.foldlM_cons] at hdb
    obtain ⟨db₁, h₁, h₂⟩ := Option.bind_eq_some_iff.mp hdb
    exact ih (hinsert db a db₁ h h₁) h₂

theorem Keyed.create_conversation {members : List UserId} (h : Keyed db)
    (hdb : db.create_conversation conv_id members = some db') : Keyed db' := by
  unfold Postgres.create_conversation at hdb
  split_ifs at hdb with hnew
  exact (h.new_conversation hnew).foldlM (fun _ _ _ h hdb => h.insert_conv_member hdb) hdb

theorem Keyed.upsert_conv_members {a b : UserId} (h : Keyed db)
    (hdb : db.upsert_conv_members conv_id a b = some db') : Keyed db' := by
  obtain ⟨db₁, h₁, h₂⟩ := Option.bind_eq_some_iff.mp hdb
  refine Keyed.insert_conv_member (Keyed.insert_conv_member ?_ h₁) h₂
  unfold Postgres.ensure_conversation
  split
  · exact h
  · rename_i hnew
    exact h.new_conversation hnew

theorem Keyed.create_group {creator_id : UserId} {member_ids : List UserId} (h : Keyed db)
    (hdb : db.create_group group_id creator_id member_ids = some db') : Keyed db' := by
  unfold Postgres.create_group at hdb
  split_ifs at hdb with hnew
  obtain ⟨db₁, h₁, h₂⟩ := Option.bind_eq_some_iff.mp hdb
  have hgroup : Keyed { db with groups := db.groups ++ [group_id] } :=
    { h with
      groups := nodup_append_one h.groups hnew
      group_rows := fun row hrow => List.mem_append_left _ (h.group_rows row hrow) }
  exact (hgroup.insert_group_member h₁).foldlM (fun _ _ _ h hdb => h.insert_group_member hdb) h₂

theorem Keyed.remove_group_member (h : Keyed db) (group_id : ConvId) (user_id : UserId) :
    Keyed (db.remove_group_member group_id user_id) :=
  { h with
    group_members := h.group_members.sublist (List.filter_sublist.map _)
    group_rows := fun row hrow => h.group_rows row (List.mem_filter.mp hrow).1 }

/-- Every request keeps the keys. -/
theorem Keyed.request {st st' : Stores} {r : database.Request} (h : Keyed st.pg)
    (hs : st.request r = some st') : Keyed st'.pg := by
  cases r with
  | register user_id =>
    obtain ⟨pg, hpg, rfl⟩ := Option.map_eq_some_iff.mp hs
    exact h.insert_user hpg
  | create_conversation conv_id creator_id members =>
    obtain ⟨pg, hpg, rfl⟩ := Option.map_eq_some_iff.mp hs
    exact h.create_conversation hpg
  | direct_send sender_id recipient_id =>
    obtain ⟨pg, hpg, rfl⟩ := Option.map_eq_some_iff.mp hs
    exact h.upsert_conv_members hpg
  | create_group group_id creator_id member_ids =>
    obtain ⟨pg, hpg, rfl⟩ := Option.map_eq_some_iff.mp hs
    rw [foldl_sadd_pg]
    exact h.create_group hpg
  | add_member group_id caller_id new_uid =>
    dsimp only [Stores.request] at hs
    split_ifs at hs
    obtain ⟨pg, hpg, rfl⟩ := Option.map_eq_some_iff.mp hs
    rw [sadd_pg]
    exact h.insert_group_member hpg
  | remove_member group_id caller_id target_uid =>
    dsimp only [Stores.request] at hs
    split_ifs at hs
    obtain rfl := Option.some.inj hs
    exact h.remove_group_member group_id target_uid

theorem keyed_of_run {rs : List database.Request} {st : Stores} (hr : stores.run rs = some st) :
    Keyed st.pg := by
  refine Machine.invariant (M := stores) (I := fun st => Keyed st.pg) ?_
    (fun _ _ _ h hs => h.request hs) hr
  refine ⟨?_, ?_, ?_, ?_, ?_, ?_, ?_⟩ <;> simp [stores, Postgres.empty]

end Keyed

/-! ## How often -/

section Counts

variable {columns : Columns} {db : Postgres} {user_id : UserId}

/-- A join on a primary key gives the row of the key. -/
theorem filter_key {α : Type} [DecidableEq α] {l : List α} {a : α} (h : l.Nodup) (ha : a ∈ l) :
    l.filter (· = a) = [a] := by
  rw [List.filter_eq, List.count_eq_one_of_mem h ha, List.replicate_one]

theorem count_copies {α : Type} [DecidableEq α] {l : List α} (h : l.Nodup) (copies : α → Nat)
    {a : α} (ha : a ∈ l) :
    (l.flatMap fun b => List.replicate (copies b) b).count a = copies a := by
  induction l with
  | nil => cases ha
  | cons b l ih =>
    rw [List.flatMap_cons, List.count_append, List.count_replicate]
    rw [List.nodup_cons] at h
    rcases List.mem_cons.mp ha with rfl | ha
    · have hnone : (l.flatMap fun b => List.replicate (copies b) b).count a = 0 := by
        apply List.count_eq_zero_of_not_mem
        intro hmem
        obtain ⟨c, hc, hcopies⟩ := List.mem_flatMap.mp hmem
        exact h.1 (List.eq_of_mem_replicate hcopies ▸ hc)
      rw [hnone]
      simp
    · have hne : ¬ b = a := fun heq => h.1 (heq ▸ ha)
      rw [ih h.2 ha]
      simp [hne]

/-- The conversations of the user. -/
def convs_of (db : Postgres) (user_id : UserId) : List ConvId :=
  (db.conv_members.filter (·.2 = user_id)).map (·.1)

/-- The members of the conversation other than the user. -/
def others (db : Postgres) (user_id : UserId) (c : ConvId) : List UserId :=
  (db.conv_members.filter fun row => row.1 = c ∧ row.2 ≠ user_id).map (·.2)

theorem mem_convs_of {c : ConvId} : c ∈ convs_of db user_id ↔ db.in_conv c user_id := by
  unfold convs_of Postgres.in_conv
  simp

theorem mem_others {c : ConvId} {v : UserId} :
    v ∈ others db user_id c ↔ v ≠ user_id ∧ db.in_conv c v := by
  unfold others Postgres.in_conv
  simp [and_comm]

theorem nodup_convs_of (h : Keyed db) : (convs_of db user_id).Nodup := by
  refine List.Nodup.map_on ?_ (h.conv_members.filter _)
  intro a ha b hb hab
  simp only [List.mem_filter, decide_eq_true_eq] at ha hb
  exact Prod.ext hab (ha.2.trans hb.2.symm)

theorem nodup_others (h : Keyed db) (c : ConvId) : (others db user_id c).Nodup := by
  refine List.Nodup.map_on ?_ (h.conv_members.filter _)
  intro a ha b hb hab
  simp only [List.mem_filter, decide_eq_true_eq] at ha hb
  exact Prod.ext (ha.2.1.trans hb.2.1.symm) hab

/-- One row for each other member. -/
theorem dm_rows_eq (h : Keyed db) :
    columns.dm_rows db user_id = (convs_of db user_id).flatMap fun c =>
      (others db user_id c).map (columns.dm_row c) := by
  unfold Columns.dm_rows convs_of others
  rw [List.flatMap_map]
  refine List.flatMap_congr fun cm hcm => ?_
  rw [filter_key h.conversations (h.conv_rows cm (List.mem_filter.mp hcm).1).1]
  rw [List.flatMap_singleton, List.map_map]
  have hone : ∀ ocm ∈ db.conv_members.filter fun row => row.1 = cm.1 ∧ row.2 ≠ user_id,
      (db.users.filter (· = ocm.2)).map (columns.dm_row cm.1) = [columns.dm_row cm.1 ocm.2] := by
    intro ocm hocm
    rw [filter_key h.users (h.conv_rows ocm (List.mem_filter.mp hocm).1).2]
    rfl
  rw [List.flatMap_congr hone]
  exact List.flatMap_pure_eq_map _ _

/-- The groups of the user. -/
def groups_of (db : Postgres) (user_id : UserId) : List ConvId :=
  (db.group_members.filter (·.2.1 = user_id)).map (·.1)

theorem mem_groups_of {g : ConvId} : g ∈ groups_of db user_id ↔ db.in_group g user_id := by
  unfold groups_of Postgres.in_group
  simp

theorem nodup_groups_of (h : Keyed db) : (groups_of db user_id).Nodup := by
  have hkeys := List.Nodup.of_map _ h.group_members
  refine List.Nodup.map_on ?_ (hkeys.filter _)
  intro a ha b hb hab
  simp only [List.mem_filter, decide_eq_true_eq] at ha hb
  exact List.inj_on_of_nodup_map h.group_members ha.1 hb.1
    (Prod.ext hab (ha.2.trans hb.2.symm))

theorem group_rows_eq (h : Keyed db) :
    columns.group_rows db user_id = (groups_of db user_id).map columns.group_row := by
  unfold Columns.group_rows groups_of
  rw [List.map_map, List.map_eq_flatMap]
  refine List.flatMap_congr fun gm hgm => ?_
  rw [filter_key h.groups (h.group_rows gm (List.mem_filter.mp hgm).1)]
  rfl

/-! ## The keys of the list -/

def row_key (row : ConversationRow) : Option (String × String) :=
  some (row.kind, toString row.id.toNat)

theorem entry_key_conversation_json (unread : List (ConvId × Int)) (row : ConversationRow) :
    entry_key (conversation_json unread row) = row_key row := rfl

theorem text_inj {a b : UInt64} (h : toString a.toNat = toString b.toNat) : a = b := by
  have hnumber := congrArg from_chars h
  rwa [from_chars_id, from_chars_id, Option.some.injEq] at hnumber

theorem dm_key_inj : Function.Injective dm_key := fun _ _ h =>
  text_inj (Prod.mk.inj (Option.some.inj h)).2

theorem group_key_inj : Function.Injective group_key := fun _ _ h =>
  text_inj (Prod.mk.inj (Option.some.inj h)).2

theorem dm_key_ne_group_key (c g : ConvId) : dm_key c ≠ group_key g := by
  intro h
  have hkind := (Prod.mk.inj (Option.some.inj h)).1
  revert hkind
  decide

/-- The keys of the list, in any order. -/
theorem keys_perm (h : Keyed db) (unread : List (ConvId × Int)) :
    (((columns.select_conversations db user_id).map (conversation_json unread)).map
      entry_key).Perm (((convs_of db user_id).flatMap fun c =>
        List.replicate (others db user_id c).length c).map dm_key ++
          (groups_of db user_id).map group_key) := by
  have hrows : (columns.select_conversations db user_id).Perm
      (columns.dm_rows db user_id ++ columns.group_rows db user_id) :=
    List.perm_insertionSort _ _
  have hkey : entry_key ∘ conversation_json unread = row_key :=
    funext fun row => entry_key_conversation_json unread row
  rw [List.map_map, hkey]
  refine (hrows.map row_key).trans (List.Perm.of_eq ?_)
  rw [List.map_append, dm_rows_eq h, group_rows_eq h, List.map_map, List.map_flatMap,
    List.map_flatMap]
  congr 1
  refine List.flatMap_congr fun c _ => ?_
  have hconst : row_key ∘ columns.dm_row c = fun _ => dm_key c := rfl
  rw [List.map_map, List.map_replicate, hconst, List.map_const']

section Law

variable {srv : Server}

theorem list_eq (srv : Server) (db : Postgres) :
    srv.list db = some ((srv.columns.select_conversations db srv.user_id).map
      (conversation_json srv.unread)) := by
  unfold Server.list list_conversations with_user
  rw [srv.verified]
  rfl

/-- A conversation is in the list as often as it has other members. -/
theorem count_dm_key (h : Keyed db) {c : ConvId} (hc : db.in_conv c user_id)
    (unread : List (ConvId × Int)) :
    (((columns.select_conversations db user_id).map (conversation_json unread)).map
      entry_key).count (dm_key c) = (others db user_id c).length := by
  have hnone : ((groups_of db user_id).map group_key).count (dm_key c) = 0 := by
    apply List.count_eq_zero_of_not_mem
    intro hmem
    obtain ⟨g, _, hkey⟩ := List.mem_map.mp hmem
    exact dm_key_ne_group_key c g hkey.symm
  rw [(keys_perm h unread).count_eq, List.count_append, hnone,
    List.count_map_of_injective _ _ dm_key_inj,
    count_copies (nodup_convs_of h) _ (mem_convs_of.mpr hc)]
  rfl

theorem count_group_key (h : Keyed db) {g : ConvId} (hg : db.in_group g user_id)
    (unread : List (ConvId × Int)) :
    (((columns.select_conversations db user_id).map (conversation_json unread)).map
      entry_key).count (group_key g) = 1 := by
  have hnone : (((convs_of db user_id).flatMap fun c =>
      List.replicate (others db user_id c).length c).map dm_key).count (group_key g) = 0 := by
    apply List.count_eq_zero_of_not_mem
    intro hmem
    obtain ⟨c, _, hkey⟩ := List.mem_map.mp hmem
    exact dm_key_ne_group_key c g hkey
  rw [(keys_perm h unread).count_eq, List.count_append, hnone,
    List.count_map_of_injective _ _ group_key_inj,
    List.count_eq_one_of_mem (nodup_groups_of h) (mem_groups_of.mpr hg)]

theorem key_of_mem (h : Keyed db) (unread : List (ConvId × Int)) {key : Option (String × String)}
    (hkey : key ∈ ((columns.select_conversations db user_id).map
      (conversation_json unread)).map entry_key) :
    (∃ c, db.in_conv c user_id ∧ key = dm_key c) ∨
      ∃ g, db.in_group g user_id ∧ key = group_key g := by
  rcases List.mem_append.mp ((keys_perm h unread).mem_iff.mp hkey) with hmem | hmem
  · obtain ⟨c, hc, rfl⟩ := List.mem_map.mp hmem
    obtain ⟨c', hc', hcopies⟩ := List.mem_flatMap.mp hc
    obtain rfl := List.eq_of_mem_replicate hcopies
    exact .inl ⟨c, mem_convs_of.mp hc', rfl⟩
  · obtain ⟨g, hg, rfl⟩ := List.mem_map.mp hmem
    exact .inr ⟨g, mem_groups_of.mp hg, rfl⟩

theorem one_other_iff (h : Keyed db) (c : ConvId) :
    (others db user_id c).length = 1 ↔ ∃! v, v ≠ user_id ∧ db.in_conv c v := by
  have hnodup := @nodup_others db user_id h c
  constructor
  · intro hlength
    obtain ⟨v, hv⟩ := List.length_eq_one_iff.mp hlength
    have hmem : ∀ w, w ≠ user_id ∧ db.in_conv c w ↔ w = v := by
      intro w
      rw [← mem_others, hv, List.mem_singleton]
    exact ⟨v, (hmem v).mpr rfl, fun w hw => (hmem w).mp hw⟩
  · rintro ⟨v, hv, honly⟩
    have hmem : ∀ w ∈ others db user_id c, w = v := fun w hw => honly w (mem_others.mp hw)
    have hsub : others db user_id c ⊆ [v] := fun w hw => by simp [hmem w hw]
    have hle := (List.subperm_of_subset hnodup hsub).length_le
    have hpos := List.length_pos_of_mem (mem_others.mpr hv)
    rw [List.length_singleton] at hle
    omega

/-- In every state that the requests reach, the list is right for a user exactly when each of the
user's conversations has one other member. -/
theorem the_list_has_one_entry_each_iff_conversations_are_pairs (srv : Server)
    {rs : List database.Request} {st : Stores} (hr : stores.run rs = some st) :
    ListsEachOnce srv st.pg ↔
      ∀ c, st.pg.in_conv c srv.user_id → ∃! v, v ≠ srv.user_id ∧ st.pg.in_conv c v := by
  have h := keyed_of_run hr
  unfold ListsEachOnce
  rw [list_eq]
  constructor
  · rintro ⟨items, hitems, hlist⟩ c hc
    obtain rfl := Option.some.inj hitems
    rw [← one_other_iff h, ← count_dm_key h hc srv.unread]
    exact hlist.conversations c hc
  · intro hpairs
    refine ⟨_, rfl, fun c hc => ?_, fun g hg => count_group_key h hg srv.unread,
      fun key hkey => key_of_mem h srv.unread hkey⟩
    rw [count_dm_key h hc]
    exact (one_other_iff h c).mpr (hpairs c hc)

end Law

section Examples

/-- User 1, with tables that have no activity. -/
def first_user : Server where
  services :=
    { verify := fun token => if token = "one" then some 1 else none
      issue := fun _ => ""
      parse := fun _ => none }
  columns :=
    { conversation := fun _ => ⟨none, none⟩
      user := fun _ => ⟨"", none, none⟩
      group := fun _ => ⟨none, none⟩
      group_name := fun _ => ""
      group_avatar := fun _ => none
      text_le := fun a b => decide (a ≤ b) }
  authorization := "Bearer one"
  user_id := 1
  verified := by decide
  unread := []
  other := http_answers.failing 0

/-- The users 1, 2 and 3, and a conversation of the first one with the members. -/
def requests (members : List UserId) : List database.Request :=
  [.register 1, .register 2, .register 3, .create_conversation 100 1 members]

def after (members : List UserId) : Stores := (stores.run (requests members)).getD stores.start

theorem a_pair_is_listed_once : ListsEachOnce first_user (after [2]).pg := by
  have hrun : stores.run (requests [2]) = some (after [2]) := rfl
  refine (the_list_has_one_entry_each_iff_conversations_are_pairs first_user hrun).mpr ?_
  have hrows : (after [2]).pg.conv_members = [(100, 1), (100, 2)] := by decide
  unfold Postgres.in_conv
  rw [hrows]
  intro c hc
  simp only [List.mem_cons, Prod.mk.injEq, List.not_mem_nil, or_false] at hc ⊢
  obtain rfl : c = 100 := by tauto
  refine ⟨2, by decide, fun v ⟨hne, hv⟩ => ?_⟩
  exact (hv.resolve_left fun hone => hne hone.2).2

/-- A conversation of three is in the list twice. -/
theorem a_conversation_of_three_is_listed_twice :
    ¬ ListsEachOnce first_user (after [2, 3]).pg := by
  rintro ⟨items, hitems, hlist⟩
  have hrun : stores.run (requests [2, 3]) = some (after [2, 3]) := rfl
  rw [list_eq, Option.some.injEq] at hitems
  subst hitems
  have honce := hlist.conversations 100 (by decide)
  rw [count_dm_key (keyed_of_run hrun) (by decide)] at honce
  revert honce
  decide

end Examples

end Counts

end loomic.conversation_list
