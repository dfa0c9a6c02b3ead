-- The admin of a group: its creator, until his row is deleted. Whatever the
-- requests do at the same time, no group has two admins, and no group that has
-- lost its admin gets another.
import Loomic.GroupServer

open coroutines loomic.auth_handler loomic.frame loomic.group_server loomic.groups_handler
open loomic.http_server machines scheduling
open loomic.database (Postgres Role Stores)

namespace loomic.one_admin

/-! ## The rows of admins -/

section Rows

variable {db db' : Postgres} {group_id g : ConvId} {user_id u : UserId}

/-- No transaction but the one for a new group makes an admin. -/
theorem insert_member_admins (h : db.insert_group_member group_id user_id .member = some db') :
    (g, u, Role.admin) ∈ db'.group_members ↔ (g, u, Role.admin) ∈ db.group_members := by
  obtain ⟨_, _, hrows, _⟩ := database.insert_group_member_eq_some h
  rw [hrows]
  constructor
  · rintro (hold | ⟨hrow, _⟩)
    · exact hold
    · cases hrow
  · exact .inl

theorem insert_members_admins {member_ids : List UserId}
    (h : member_ids.foldlM (fun db user_id => db.insert_group_member group_id user_id .member) db =
      some db') :
    (g, u, Role.admin) ∈ db'.group_members ↔ (g, u, Role.admin) ∈ db.group_members := by
  induction member_ids generalizing db with
  | nil =>
    obtain rfl := Option.some.inj h
    rfl
  | cons user_id member_ids ih =>
    rw [List.foldlM_cons] at h
    obtain ⟨db₁, h₁, h₂⟩ := Option.bind_eq_some_iff.mp h
    rw [ih h₂, insert_member_admins h₁]

/-- The admin of a new group is its creator. -/
theorem create_group_admins {creator_id : UserId} {member_ids : List UserId}
    (hkeys : ∀ row ∈ db.group_members, row.1 ∈ db.groups)
    (h : db.create_group group_id creator_id member_ids = some db') :
    (g, u, Role.admin) ∈ db'.group_members ↔
      (g, u, Role.admin) ∈ db.group_members ∨ g = group_id ∧ u = creator_id := by
  unfold Postgres.create_group at h
  split_ifs at h with hnew
  obtain ⟨db₁, h₁, h₂⟩ := Option.bind_eq_some_iff.mp h
  obtain ⟨_, _, hrows, _⟩ := database.insert_group_member_eq_some h₁
  rw [insert_members_admins h₂, hrows]
  refine or_congr_right ⟨?_, ?_⟩
  · rintro ⟨hrow, _⟩
    cases hrow
    exact ⟨rfl, rfl⟩
  · rintro ⟨rfl, rfl⟩
    refine ⟨rfl, ?_⟩
    rintro ⟨role, hrow⟩
    exact hnew (hkeys _ hrow)

end Rows

/-! ## The invariant -/

/-- The row of an admin was deleted. -/
def Orphaned (s : Shared) (group_id : ConvId) : Prop :=
  ∃ w ∈ s.writes, w.group_id = group_id ∧
    ∃ u, w.change = .removal u ∧ (group_id, u, Role.admin) ∈ w.before.group_members

/-- One admin, or none once he was removed. -/
structure OneAdmin (s : Shared) : Prop where
  keys : ∀ row ∈ s.st.pg.group_members, row.1 ∈ s.st.pg.groups
  known : ∀ g, Orphaned s g → g ∈ s.st.pg.groups
  unique : ∀ g u v, s.st.is_admin g u → s.st.is_admin g v → u = v
  present : ∀ g ∈ s.st.pg.groups, Orphaned s g ∨ ∃ u, s.st.is_admin g u
  absent : ∀ g, Orphaned s g → ∀ u, ¬ s.st.is_admin g u

section Steps

variable {s s' : Shared} {group_id : ConvId}

theorem one_admin_empty : OneAdmin .empty where
  keys := fun _ h => absurd h List.not_mem_nil
  known := fun _ ⟨_, h, _⟩ => absurd h List.not_mem_nil
  unique := fun _ _ _ h => absurd h List.not_mem_nil
  present := fun _ h => absurd h List.not_mem_nil
  absent := fun _ ⟨_, h, _⟩ => absurd h List.not_mem_nil

/-- A write, as far as the admins are concerned. -/
theorem orphaned_write {caller : Option UserId} {change : Change} {pg : Postgres} {g : ConvId} :
    Orphaned (s.write group_id caller change pg) g ↔
      Orphaned s g ∨ group_id = g ∧ ∃ u, change = .removal u ∧ s.st.is_admin g u := by
  unfold Orphaned Shared.write Stores.is_admin
  simp only [List.mem_append, List.mem_singleton]
  constructor
  · rintro ⟨w, hw | rfl, hkey, hchange⟩
    · exact .inl ⟨w, hw, hkey, hchange⟩
    · exact .inr ⟨hkey, hchange⟩
  · rintro (⟨w, hw, hkey, hchange⟩ | ⟨hkey, hchange⟩)
    · exact ⟨w, .inl hw, hkey, hchange⟩
    · exact ⟨_, .inr rfl, hkey, hchange⟩

/-- A step that makes no admin, removes none, and adds no group. -/
theorem OneAdmin.of_same (h : OneAdmin s) (hgroups : s'.st.pg.groups = s.st.pg.groups)
    (hkeys : ∀ row ∈ s'.st.pg.group_members, row.1 ∈ s.st.pg.groups)
    (hadmin : ∀ g u, s'.st.is_admin g u ↔ s.st.is_admin g u)
    (horphan : ∀ g, Orphaned s' g ↔ Orphaned s g) : OneAdmin s' where
  keys := by
    rw [hgroups]
    exact hkeys
  known := by
    intro g hg
    rw [hgroups]
    exact h.known g ((horphan g).mp hg)
  unique := by
    intro g u v hu hv
    exact h.unique g u v ((hadmin g u).mp hu) ((hadmin g v).mp hv)
  present := by
    intro g hg
    rw [hgroups] at hg
    exact (h.present g hg).imp (horphan g).mpr fun ⟨u, hu⟩ => ⟨u, (hadmin g u).mpr hu⟩
  absent := by
    intro g hg u hu
    exact h.absent g ((horphan g).mp hg) u ((hadmin g u).mp hu)

theorem OneAdmin.create (h : OneAdmin s) {creator_id : UserId} {member_ids : List UserId}
    {pg : Postgres} (hpg : s.st.pg.create_group group_id creator_id member_ids = some pg)
    (name : ConvId → String) :
    OneAdmin { s with st := { s.st with pg := pg }, name := name } := by
  obtain ⟨hnew, hgroups, hrows, _⟩ := database.create_group_eq_some hpg
  have hadmin : ∀ g u, (g, u, Role.admin) ∈ pg.group_members ↔
      s.st.is_admin g u ∨ g = group_id ∧ u = creator_id :=
    fun g u => create_group_admins h.keys hpg
  have hold : ∀ g u, s.st.is_admin g u → g ≠ group_id := by
    rintro g u hu rfl
    exact hnew (h.keys _ hu)
  refine ⟨?_, ?_, ?_, ?_, ?_⟩
  · intro row hrow
    dsimp only at hrow ⊢
    rw [hgroups, List.mem_append, List.mem_singleton]
    by_cases hkey : row.1 = group_id
    · exact .inr hkey
    · exact .inl (h.keys row ((hrows row hkey).mp hrow))
  · intro g hg
    dsimp only
    rw [hgroups]
    exact List.mem_append_left _ (h.known g hg)
  · intro g u v hu hv
    rcases (hadmin g u).mp hu with hu | ⟨rfl, rfl⟩
    · rcases (hadmin g v).mp hv with hv | ⟨rfl, _⟩
      · exact h.unique g u v hu hv
      · exact absurd rfl (hold _ _ hu)
    · rcases (hadmin _ v).mp hv with hv | ⟨_, rfl⟩
      · exact absurd rfl (hold _ _ hv)
      · rfl
  · intro g hg
    dsimp only at hg
    rw [hgroups, List.mem_append, List.mem_singleton] at hg
    rcases hg with hg | rfl
    · exact (h.present g hg).imp id fun ⟨u, hu⟩ => ⟨u, (hadmin g u).mpr (.inl hu)⟩
    · exact .inr ⟨creator_id, (hadmin g creator_id).mpr (.inr ⟨rfl, rfl⟩)⟩
  · intro g hg u hu
    rcases (hadmin g u).mp hu with hu | ⟨rfl, _⟩
    · exact h.absent g hg u hu
    · exact hnew (h.known _ hg)

theorem OneAdmin.rename (h : OneAdmin s) (caller : Option UserId) (name : String) :
    OneAdmin ((s.update_name group_id name).write group_id caller (.rename name) s.st.pg) := by
  refine h.of_same rfl h.keys (fun _ _ => Iff.rfl) fun g => ?_
  rw [orphaned_write]
  unfold Orphaned
  rw [update_name_writes]
  constructor
  · rintro (hold | ⟨_, u, hchange, _⟩)
    · exact hold
    · cases hchange
  · exact .inl

theorem OneAdmin.insert (h : OneAdmin s) (caller : Option UserId) {new_uid : UserId}
    {pg : Postgres} (hpg : s.st.pg.insert_group_member group_id new_uid .member = some pg) :
    OneAdmin (s.write group_id caller (.insertion new_uid) pg) := by
  obtain ⟨hgroups, hgroup, hrows, _⟩ := database.insert_group_member_eq_some hpg
  refine h.of_same hgroups ?_ (fun g u => insert_member_admins hpg) fun g => ?_
  · intro row hrow
    rcases (hrows row).mp hrow with hold | ⟨rfl, _⟩
    · exact h.keys row hold
    · exact hgroup
  · rw [orphaned_write]
    constructor
    · rintro (hold | ⟨_, u, hchange, _⟩)
      · exact hold
      · cases hchange
    · exact .inl

/-- A removal. When it takes the admin, the group has none. -/
theorem OneAdmin.remove (h : OneAdmin s) (caller : Option UserId) (target_uid : UserId) :
    OneAdmin (s.write group_id caller (.removal target_uid)
      (s.st.pg.remove_group_member group_id target_uid)) := by
  have hadmin : ∀ g u, (s.write group_id caller (.removal target_uid)
      (s.st.pg.remove_group_member group_id target_uid)).st.is_admin g u ↔
        s.st.is_admin g u ∧ ¬ (g = group_id ∧ u = target_uid) :=
    fun g u => database.mem_remove_group_member
  refine ⟨?_, ?_, ?_, ?_, ?_⟩
  · intro row hrow
    exact h.keys row (database.mem_remove_group_member.mp hrow).1
  · intro g hg
    rcases orphaned_write.mp hg with hg | ⟨rfl, u, _, hu⟩
    · exact h.known g hg
    · exact h.keys _ hu
  · intro g u v hu hv
    exact h.unique g u v ((hadmin g u).mp hu).1 ((hadmin g v).mp hv).1
  · intro g hg
    rcases h.present g hg with horphan | ⟨u, hu⟩
    · exact .inl (orphaned_write.mpr (.inl horphan))
    · by_cases hkey : g = group_id ∧ u = target_uid
      · obtain ⟨rfl, rfl⟩ := hkey
        exact .inl (orphaned_write.mpr (.inr ⟨rfl, u, rfl, hu⟩))
      · exact .inr ⟨u, (hadmin g u).mpr ⟨hu, hkey⟩⟩
  · intro g hg u hu
    obtain ⟨hrow, hother⟩ := (hadmin g u).mp hu
    rcases orphaned_write.mp hg with hg | ⟨rfl, v, hchange, hv⟩
    · exact h.absent g hg u hrow
    · obtain rfl := Change.removal.inj hchange
      exact hother ⟨rfl, h.unique group_id u target_uid hrow hv⟩

/-- A call of a request keeps the invariant, wherever the request stands. -/
theorem OneAdmin.exec {services : Services} {n : GroupRequest} {now : Option String}
    {call : GroupsCall} {answer : call.Answer} (h : OneAdmin s)
    (hexec : exec services n now call s = some (answer, s')) : OneAdmin s' := by
  cases call with
  | insert_group group_id name creator_id member_ids =>
    rcases exec_insert_group hexec with ⟨_, rfl⟩ | ⟨_, pg, _, hpg, rfl⟩
    · exact h
    · exact h.create hpg _
  | select_group group_id => cases hexec
  | select_members group_id => cases hexec
  | select_role group_id caller_id =>
    obtain ⟨rfl, _⟩ := exec_select_role hexec
    exact h
  | update_name group_id name =>
    rcases exec_update_name hexec with ⟨_, _, rfl⟩ | ⟨_, _, rfl⟩
    · exact h
    · exact h.rename _ _
  | insert_member group_id new_uid =>
    rcases exec_insert_member hexec with ⟨_, _, rfl⟩ | ⟨pg, _, hpg, _, rfl⟩
    · exact h
    · exact h.insert _ hpg
  | delete_member group_id target_uid =>
    rcases exec_delete_member hexec with ⟨_, _, rfl⟩ | ⟨_, _, rfl⟩
    · exact h
    · exact h.remove _ _
  | sadd_group_member group_id user_id =>
    obtain ⟨_, rfl⟩ := Prod.mk.inj (Option.some.inj hexec)
    refine h.of_same (congrArg Postgres.groups (database.sadd_pg _ _ _)) ?_ ?_ fun _ => Iff.rfl
    · dsimp only
      rw [database.sadd_pg]
      exact h.keys
    · intro g u
      unfold Stores.is_admin
      rw [database.sadd_pg]
  | srem_group_member group_id user_id =>
    obtain ⟨_, rfl⟩ := Prod.mk.inj (Option.some.inj hexec)
    exact h.of_same rfl h.keys (fun _ _ => Iff.rfl) fun _ => Iff.rfl

end Steps

/-! ## Every run -/

theorem one_admin_step {services : Services} {s s' : State} {a : Label} (h : OneAdmin s.shared)
    (hstep : (server services).step s a = some s') : OneAdmin s'.shared := by
  cases turn_of_step hstep with
  | spawn n => exact h
  | env henv =>
    rename_i e shared
    obtain ⟨user_id⟩ := e
    obtain ⟨pg, hpg, rfl⟩ := Option.map_eq_some_iff.mp henv
    unfold Postgres.insert_user at hpg
    split_ifs at hpg
    cases hpg
    exact h.of_same rfl h.keys (fun _ _ => Iff.rfl) fun _ => Iff.rfl
  | resume htask hexec => exact h.exec hexec

/-- In every run a group has exactly one admin until the row of its admin is deleted, and none
from then on. -/
theorem a_group_has_one_admin_until_he_is_gone (services : Services) {as : List Label} {s : State}
    (hr : (server services).machine.run as = some s) : ∀ g ∈ s.shared.st.pg.groups,
      Orphaned s.shared g ∧ (∀ u, ¬ s.shared.st.is_admin g u) ∨
        ¬ Orphaned s.shared g ∧ ∃! u, s.shared.st.is_admin g u := by
  have h : OneAdmin s.shared := Machine.invariant (M := (server services).machine)
    (I := fun s => OneAdmin s.shared) one_admin_empty (fun _ _ _ => one_admin_step) hr
  intro g hg
  by_cases horphan : Orphaned s.shared g
  · exact .inl ⟨horphan, h.absent g horphan⟩
  · obtain ⟨u, hu⟩ := (h.present g hg).resolve_left horphan
    exact .inr ⟨horphan, u, hu, fun v hv => h.unique g v u hv hu⟩

/-- Here the admin leaves his group. -/
def departed : List Label :=
  a_group ++ [.spawn (.remove (request_of "Bearer 1") [("id", "9"), ("uid", "1")]),
    .resume 1 (some "now")]

theorem a_group_that_its_admin_left_has_none :
    ∃ s, (server small_services).machine.run departed = some s ∧
      s.shared.st.pg.groups = [9] ∧ Orphaned s.shared 9 ∧
      ∀ g ∈ s.shared.st.pg.groups,
        Orphaned s.shared g ∧ (∀ u, ¬ s.shared.st.is_admin g u) ∨
          ¬ Orphaned s.shared g ∧ ∃! u, s.shared.st.is_admin g u :=
  ⟨_, rfl, rfl, ⟨_, List.mem_cons_self, rfl, 1, rfl, by decide⟩,
    @a_group_has_one_admin_until_he_is_gone small_services departed _ rfl⟩

end loomic.one_admin
