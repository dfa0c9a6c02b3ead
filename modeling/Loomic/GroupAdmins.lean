-- Who may change a group. A request checks the role of its caller in one call
-- and writes in another, so another request may delete the caller's row
-- between the two.
import Loomic.GroupServer

open coroutines loomic.auth_handler loomic.frame loomic.group_server loomic.groups_handler
open loomic.http_server loomic.json machines scheduling
open loomic.database (Postgres Role Stores)

namespace loomic.group_admins

/-! ## The law -/

/-- An admin asked for the write, or a user removed himself. -/
def Authorized (w : Write) : Prop :=
  ∃ u ∈ w.caller, w.change = .removal u ∨ (w.group_id, u, Role.admin) ∈ w.before.group_members

instance (w : Write) : Decidable (Authorized w) :=
  decidable_of_iff (∃ u ∈ w.caller, w.change = .removal u ∨
    ({ pg := w.before, group_set := fun _ => [] } : Stores).is_admin w.group_id u) Iff.rfl

/-- Every write that has committed was authorized by the tables that it found. -/
def ByAdmins (s : State) : Prop := ∀ w ∈ s.shared.writes, Authorized w

instance decidable_byAdmins (s : State) : Decidable (ByAdmins s) := by
  unfold ByAdmins
  infer_instance

/-- The write that a request stands before. A constraint may refuse an insertion. -/
def next_write (services : Services) (s : Shared) : GroupRequest × GroupsCoroutine → Option Write
  | (n, .await (.update_name group_id name) _) =>
    some ⟨group_id, caller services n, .rename name, s.st.pg⟩
  | (n, .await (.insert_member group_id new_uid) _) =>
    (s.st.pg.insert_group_member group_id new_uid .member).map fun _ =>
      ⟨group_id, caller services n, .insertion new_uid, s.st.pg⟩
  | (n, .await (.delete_member group_id target_uid) _) =>
    some ⟨group_id, caller services n, .removal target_uid, s.st.pg⟩
  | _ => none

/-- A write that commits is of a user who removes himself, or whose row was not deleted. -/
def CallersStay (services : Services) (s : State) : Label → Prop
  | .resume i (some _) => ∀ w ∈ s.tasks[i]?.bind (next_write services s.shared), ∀ u ∈ w.caller,
      w.change = .removal u ∨ ¬ Removed s.shared w.group_id u
  | _ => True

instance decidable_callersStay (services : Services) (s : State) :
    ∀ a, Decidable (CallersStay services s a)
  | .resume _ (some _) => inferInstanceAs (Decidable (∀ w ∈ _, ∀ u ∈ _, _ ∨ _))
  | .resume _ none | .spawn _ | .env _ => isTrue trivial

/-! ## One write -/

section Steps

variable {services : Services} {shared shared' : Shared} {n : GroupRequest} {now : Option String}

/-- A call commits the write that the request stands before, and no other. -/
theorem writes_step {call : GroupsCall} (resume : call.Answer → GroupsCoroutine)
    {answer : call.Answer} (hexec : exec services n now call shared = some (answer, shared')) :
    shared'.writes = shared.writes ++
      (now.bind fun _ => next_write services shared (n, .await call resume)).toList := by
  cases call with
  | insert_group group_id name creator_id member_ids =>
    rcases exec_insert_group hexec with ⟨_, rfl⟩ | ⟨_, pg, _, _, rfl⟩ <;> cases now <;>
      simp [next_write]
  | select_group group_id => cases hexec
  | select_members group_id => cases hexec
  | select_role group_id caller_id =>
    obtain ⟨rfl, _⟩ := exec_select_role hexec
    cases now <;> simp [next_write]
  | update_name group_id name =>
    rcases exec_update_name hexec with ⟨rfl, _, rfl⟩ | ⟨hnow, _, rfl⟩
    · simp
    · obtain ⟨_, rfl⟩ := Option.isSome_iff_exists.mp hnow
      simp [next_write, Shared.write]
  | insert_member group_id new_uid =>
    rcases exec_insert_member hexec with ⟨rfl | hpg, _, rfl⟩ | ⟨pg, hnow, hpg, _, rfl⟩
    · simp
    · cases now <;> simp [next_write, hpg]
    · obtain ⟨_, rfl⟩ := Option.isSome_iff_exists.mp hnow
      simp [next_write, hpg, Shared.write]
  | delete_member group_id target_uid =>
    rcases exec_delete_member hexec with ⟨rfl, _, rfl⟩ | ⟨hnow, _, rfl⟩
    · simp
    · obtain ⟨_, rfl⟩ := Option.isSome_iff_exists.mp hnow
      simp [next_write, Shared.write]
  | sadd_group_member group_id user_id =>
    obtain ⟨_, rfl⟩ := Prod.mk.inj (Option.some.inj hexec)
    cases now <;> simp [next_write]
  | srem_group_member group_id user_id =>
    obtain ⟨_, rfl⟩ := Prod.mk.inj (Option.some.inj hexec)
    cases now <;> simp [next_write]

/-- What is known of the caller of a write that is next. -/
structure Checked (shared : Shared) (w : Write) (u : UserId) : Prop where
  caller : w.caller = some u
  before : w.before = shared.st.pg
  vetted : w.change = .removal u ∨ Vetted shared w.group_id u

theorem checked_of_stage {x : GroupsCoroutine} {w : Write} (hstage : Stage services shared n x)
    (hw : next_write services shared (n, x) = some w) : ∃ u, Checked shared w u := by
  cases hstage with
  | create => cases hw
  | fill user_ids => cases user_ids <;> cases hw
  | check_rename hcaller => cases hw
  | rename hcaller hvetted =>
    obtain rfl := Option.some.inj hw
    exact ⟨_, hcaller, rfl, .inr hvetted⟩
  | check_insert hcaller => cases hw
  | insert hcaller hvetted =>
    obtain ⟨pg, _, rfl⟩ := Option.map_eq_some_iff.mp hw
    exact ⟨_, hcaller, rfl, .inr hvetted⟩
  | check_remove hcaller => cases hw
  | remove hcaller hvetted =>
    obtain rfl := Option.some.inj hw
    refine ⟨_, hcaller, rfl, hvetted.imp_left ?_⟩
    rintro rfl
    rfl
  | clear => cases hw
  | replied => cases hw
  | raised => cases hw

/-- A write that is next is authorized just if the caller's row was not deleted. -/
theorem Checked.authorized_iff {w : Write} {u : UserId} (h : Checked shared w u)
    (hc : Consistent shared) :
    Authorized w ↔ ∀ u ∈ w.caller, w.change = .removal u ∨ ¬ Removed shared w.group_id u := by
  constructor
  · rintro ⟨v, hv, hself | hadmin⟩ u' hu
    · obtain rfl := Option.mem_unique hv hu
      exact .inl hself
    · obtain rfl := Option.mem_unique hv hu
      rw [h.before] at hadmin
      exact .inr fun hremoved => hc.removed _ _ hremoved hadmin
  · intro hstays
    refine ⟨u, h.caller, ?_⟩
    rcases hstays u h.caller with hself | hnot
    · exact .inl hself
    · rcases h.vetted with hself | hadmin | hremoved
      · exact .inl hself
      · rw [h.before]
        exact .inr hadmin
      · exact absurd hremoved hnot

end Steps

/-! ## The law of a run -/

section Runs

variable {services : Services} {s s' : State}

/-- A step that adds no unauthorized write is one that meets the condition. -/
theorem by_admins_step {a : Label} (h : Sound services s)
    (hstep : (server services).step s a = some s') :
    ByAdmins s' ↔ ByAdmins s ∧ CallersStay services s a := by
  cases turn_of_step hstep with
  | spawn n => exact ⟨fun hs => ⟨hs, trivial⟩, fun hs => hs.1⟩
  | env henv =>
    rename_i e shared
    obtain ⟨user_id⟩ := e
    obtain ⟨pg, _, rfl⟩ := Option.map_eq_some_iff.mp henv
    exact ⟨fun hs => ⟨hs, trivial⟩, fun hs => hs.1⟩
  | @resume i now n call resume answer shared htask hexec =>
    unfold ByAdmins
    dsimp only
    rw [writes_step resume hexec, List.forall_mem_append]
    refine and_congr_right fun _ => ?_
    cases now with
    | none => simp [CallersStay]
    | some time =>
      unfold CallersStay
      dsimp only
      rw [htask]
      simp only [Option.bind_some, Option.mem_toList, Option.mem_def]
      refine forall₂_congr fun w hw => ?_
      obtain ⟨u, hchecked⟩ := checked_of_stage (h.task i n _ htask) hw
      exact hchecked.authorized_iff h.shared

/-- Along a run only admins change groups exactly when no caller's row is deleted between the
check of his role and his write. -/
theorem groups_are_changed_by_admins_iff_callers_stay (services : Services) {as : List Label}
    {s : State} (hr : (server services).machine.run as = some s) :
    (∀ bs s', bs <+: as → (server services).machine.run bs = some s' → ByAdmins s') ↔
      (server services).machine.Meets (CallersStay services) as := by
  refine Machine.always_iff_meets (I := fun s => Sound services s ∧ ByAdmins s) ⟨sound_start, ?_⟩
    ?_ (fun _ h => h.2) ?_ hr
  · intro w hw
    cases hw
  · intro s a s' h hok hstep
    exact ⟨sound_step h.1 hstep, (by_admins_step h.1 hstep).mpr ⟨h.2, hok⟩⟩
  · intro s a s' h hstep hs
    exact ((by_admins_step h.1 hstep).mp hs).2

end Runs

/-! ## A caller who leaves -/

section Examples

def departure : Label := .spawn (.remove (request_of "Bearer 1") [("id", "9"), ("uid", "1")])

/-- The admin adds 3 and then leaves. -/
def in_turn : List Label :=
  a_group ++ [addition, .resume 1 (some "now"), .resume 1 (some "now"), departure,
    .resume 2 (some "now")]

/-- The admin leaves when his role was checked and 3 is not yet added. -/
def overlapping : List Label :=
  a_group ++ [addition, .resume 1 (some "now"), departure, .resume 2 (some "now"),
    .resume 1 (some "now")]

theorem an_admin_adds_a_member_and_leaves :
    ∃ s, (server small_services).machine.run in_turn = some s ∧ ByAdmins s :=
  ⟨_, rfl, (groups_are_changed_by_admins_iff_callers_stay small_services rfl).mpr (by decide)
    in_turn _ (List.prefix_refl _) rfl⟩

theorem an_admin_who_has_left_adds_a_member :
    ∃ s, (server small_services).machine.run overlapping = some s ∧ ¬ ByAdmins s :=
  ⟨_, rfl, by decide⟩

end Examples

end loomic.group_admins
