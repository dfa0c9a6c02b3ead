-- The sets of group members in Redis. A request changes the rows in one step
-- and the set in a later one, so the changes of two requests may come to the
-- set in another order than to the rows.
import Loomic.GroupServer
import Loomic.Routing

open coroutines loomic.auth_handler loomic.frame loomic.group_server loomic.groups_handler
open loomic.http_server loomic.json machines scheduling
open loomic.database (Postgres Role Stores)

namespace loomic.group_cache

/-! ## The commands of Redis -/

/-- `SADD` or `SREM` on the set of a group. -/
structure Command where
  adds : Bool
  group_id : ConvId
  user_id : UserId
  deriving DecidableEq

/-- The commands that a request has still to send, once its transactions are done. -/
def pending : GroupsCoroutine → List Command
  | .await (.sadd_group_member group_id user_id) resume =>
    ⟨true, group_id, user_id⟩ :: pending (resume ())
  | .await (.srem_group_member group_id user_id) resume =>
    ⟨false, group_id, user_id⟩ :: pending (resume ())
  | _ => []

/-- The command leaves the user in the set just if he has a row. -/
def Command.Current (c : Command) (pg : Postgres) : Prop :=
  c.adds = true ↔ pg.in_group c.group_id c.user_id

instance (c : Command) (pg : Postgres) : Decidable (c.Current pg) := by
  unfold Command.Current
  infer_instance

/-- The command is about the same user of the same group. -/
def Command.Same (c d : Command) : Prop := c.group_id = d.group_id ∧ c.user_id = d.user_id

instance (c d : Command) : Decidable (c.Same d) := by unfold Command.Same; infer_instance

/-! ## The law -/

/-- What the send paths find in the stores are the rows of each group. -/
def Agrees (st : Stores) : Prop :=
  ∀ g u, u ∈ (routing.after st).members g ↔ st.pg.in_group g u

/-- A command is current when it is sent, or another request has still to send one that is. -/
def InOrder (s : State) : Label → Prop
  | .resume i _ => ∀ c ∈ s.tasks[i]?.bind fun task => (pending task.2).head?,
      c.Current s.shared.st.pg ∨ ∃ other ∈ s.tasks.eraseIdx i, ∃ d ∈ pending other.2,
        d.Same c ∧ d.Current s.shared.st.pg
  | .spawn _ | .env _ => True

instance decidable_inOrder (s : State) : ∀ a, Decidable (InOrder s a)
  | .resume _ _ => inferInstanceAs (Decidable (∀ c ∈ _, _ ∨ ∃ other ∈ _, ∃ d ∈ _, _ ∧ _))
  | .spawn _ | .env _ => isTrue trivial

/-! ## What one step does to the set -/

/-- The command makes the set of its group say of its user what the rows say. -/
def Command.Settles (c : Command) (pg : Postgres) (g : ConvId) (u : UserId) : Prop :=
  c.group_id = g ∧ c.user_id = u ∧ c.Current pg

/-- A command of Redis has been sent. -/
structure Sends (c : Command) (st st' : Stores) : Prop where
  pg : st'.pg = st.pg
  key : c.user_id ∈ st'.group_set c.group_id ↔ c.adds = true
  rest : ∀ g u, ¬ (c.group_id = g ∧ c.user_id = u) →
    (u ∈ st'.group_set g ↔ u ∈ st.group_set g)

/-- The tables have changed, and a command for each change is due. -/
structure Owes (due : List Command) (st st' : Stores) : Prop where
  group_set : st'.group_set = st.group_set
  rows : ∀ g u, (st'.pg.in_group g u ↔ st.pg.in_group g u) ∨ ∃ c ∈ due, c.Settles st'.pg g u

section Steps

variable {services : Services} {s s' : Shared} {n : GroupRequest} {now : Option String}

theorem pending_each {group_id : ConvId} {res : Response} (user_ids : List UserId) :
    pending (.each (user_ids.map (.sadd_group_member group_id)) (.ret res)) =
      user_ids.map fun u => ⟨true, group_id, u⟩ := by
  induction user_ids with
  | nil => rfl
  | cons user_id user_ids ih => exact congrArg (_ :: ·) ih

theorem sends_sadd (st : Stores) (group_id : ConvId) (user_id : UserId) :
    Sends ⟨true, group_id, user_id⟩ st (st.sadd group_id user_id) where
  pg := database.sadd_pg st group_id user_id
  key := by simp [database.mem_sadd]
  rest := by
    intro g u hkey
    rw [database.mem_sadd]
    refine ⟨?_, .inl⟩
    rintro (hu | ⟨rfl, rfl⟩)
    · exact hu
    · exact absurd ⟨rfl, rfl⟩ hkey

theorem sends_srem (st : Stores) (group_id : ConvId) (user_id : UserId) :
    Sends ⟨false, group_id, user_id⟩ st (st.srem group_id user_id) where
  pg := rfl
  key := by simp [database.mem_srem]
  rest := by
    intro g u hkey
    rw [database.mem_srem]
    refine ⟨fun hu => hu.1, fun hu => ⟨hu, ?_⟩⟩
    rintro ⟨rfl, rfl⟩
    exact hkey ⟨rfl, rfl⟩

theorem owes_nothing (due : List Command) {st st' : Stores} (hset : st'.group_set = st.group_set)
    (hrows : st'.pg.group_members = st.pg.group_members) : Owes due st st' where
  group_set := hset
  rows := by
    intro g u
    unfold Postgres.in_group
    rw [hrows]
    exact .inl Iff.rfl

theorem owes_create {st : Stores} {pg : Postgres} {group_id : ConvId} {creator_id : UserId}
    {member_ids : List UserId}
    (hpg : st.pg.create_group group_id creator_id member_ids = some pg) :
    Owes ((creator_id :: member_ids).map fun u => ⟨true, group_id, u⟩) st { st with pg := pg } where
  group_set := rfl
  rows := by
    intro g u
    obtain ⟨_, _, _, hmem⟩ := database.create_group_eq_some hpg
    by_cases hkey : g = group_id ∧ u ∈ creator_id :: member_ids
    · obtain ⟨rfl, hu⟩ := hkey
      refine .inr ⟨_, List.mem_map_of_mem hu, rfl, rfl, ?_⟩
      exact iff_of_true rfl ((hmem _ _).mpr (.inr ⟨rfl, hu⟩))
    · exact .inl ((hmem g u).trans (or_iff_left hkey))

theorem owes_insert {st : Stores} {pg : Postgres} {group_id : ConvId} {new_uid : UserId}
    {role : Role} (hpg : st.pg.insert_group_member group_id new_uid role = some pg) :
    Owes [⟨true, group_id, new_uid⟩] st { st with pg := pg } where
  group_set := rfl
  rows := by
    intro g u
    obtain ⟨_, _, _, hmem⟩ := database.insert_group_member_eq_some hpg
    by_cases hkey : g = group_id ∧ u = new_uid
    · obtain ⟨rfl, rfl⟩ := hkey
      refine .inr ⟨_, List.mem_singleton.mpr rfl, rfl, rfl, ?_⟩
      exact iff_of_true rfl ((hmem _ _).mpr (.inr ⟨rfl, rfl⟩))
    · exact .inl ((hmem g u).trans (or_iff_left hkey))

theorem owes_remove (st : Stores) (group_id : ConvId) (target_uid : UserId) :
    Owes [⟨false, group_id, target_uid⟩] st
      { st with pg := st.pg.remove_group_member group_id target_uid } where
  group_set := rfl
  rows := by
    intro g u
    have hmem := @database.in_group_remove_group_member st.pg group_id g target_uid u
    by_cases hkey : g = group_id ∧ u = target_uid
    · obtain ⟨rfl, rfl⟩ := hkey
      refine .inr ⟨_, List.mem_singleton.mpr rfl, rfl, rfl, ?_⟩
      refine iff_of_false Bool.false_ne_true fun hin => ?_
      exact (hmem.mp hin).2 ⟨rfl, rfl⟩
    · exact .inl (hmem.trans (and_iff_left hkey))

/-- A step of a request sends its next command, or is a transaction whose commands are due. -/
theorem sends_or_owes {call : GroupsCall} {resume : call.Answer → GroupsCoroutine}
    {answer : call.Answer} (hstage : Stage services s n (.await call resume))
    (hexec : exec services n now call s = some (answer, s')) :
    (∃ c, pending (.await call resume) = c :: pending (resume answer) ∧ Sends c s.st s'.st) ∨
      pending (.await call resume) = [] ∧ Owes (pending (resume answer)) s.st s'.st := by
  generalize hx : Coroutine.await call resume = x at hstage
  cases hstage with
  | create =>
    cases hx
    refine .inr ⟨rfl, ?_⟩
    rcases exec_insert_group hexec with ⟨rfl, rfl⟩ | ⟨created_at, pg, rfl, hpg, rfl⟩
    · exact owes_nothing _ rfl rfl
    · dsimp only
      unfold create_group_fill reply
      rw [pending_each]
      exact owes_create hpg
  | fill user_ids =>
    cases user_ids with
    | nil => cases hx
    | cons user_id user_ids =>
      cases hx
      obtain ⟨rfl, rfl⟩ := Prod.mk.inj (Option.some.inj hexec)
      exact .inl ⟨_, rfl, sends_sadd _ _ _⟩
  | check_rename hcaller =>
    cases hx
    obtain ⟨rfl, _⟩ := exec_select_role hexec
    exact .inr ⟨rfl, owes_nothing _ rfl rfl⟩
  | rename hcaller hvetted =>
    cases hx
    refine .inr ⟨rfl, ?_⟩
    rcases exec_update_name hexec with ⟨_, rfl, rfl⟩ | ⟨_, rfl, rfl⟩
    · exact owes_nothing _ rfl rfl
    · refine owes_nothing _ ?_ rfl
      change (s.update_name _ _).st.group_set = s.st.group_set
      rw [update_name_st]
  | check_insert hcaller =>
    cases hx
    obtain ⟨rfl, _⟩ := exec_select_role hexec
    exact .inr ⟨rfl, owes_nothing _ rfl rfl⟩
  | insert hcaller hvetted =>
    cases hx
    refine .inr ⟨rfl, ?_⟩
    rcases exec_insert_member hexec with ⟨_, rfl, rfl⟩ | ⟨pg, _, hpg, rfl, rfl⟩
    · exact owes_nothing _ rfl rfl
    · exact owes_insert hpg
  | check_remove hcaller =>
    cases hx
    obtain ⟨rfl, _⟩ := exec_select_role hexec
    exact .inr ⟨rfl, owes_nothing _ rfl rfl⟩
  | remove hcaller hvetted =>
    cases hx
    refine .inr ⟨rfl, ?_⟩
    rcases exec_delete_member hexec with ⟨_, rfl, rfl⟩ | ⟨_, rfl, rfl⟩
    · exact owes_nothing _ rfl rfl
    · exact owes_remove _ _ _
  | clear =>
    cases hx
    obtain ⟨rfl, rfl⟩ := Prod.mk.inj (Option.some.inj hexec)
    exact .inl ⟨_, rfl, sends_srem _ _ _⟩
  | replied => cases hx
  | raised => cases hx

end Steps

/-! ## The invariant of a run -/

/-- A request has still to send a command that settles the user. -/
def Due (s : State) (g : ConvId) (u : UserId) : Prop :=
  ∃ (j : Nat) (task : GroupRequest × GroupsCoroutine), s.tasks[j]? = some task ∧
    ∃ c ∈ pending task.2, c.Settles s.shared.st.pg g u

/-- The set says of each user what the rows say, or a command for him is due. -/
def Tracks (s : State) : Prop :=
  ∀ g u, (u ∈ s.shared.st.group_set g ↔ s.shared.st.pg.in_group g u) ∨ Due s g u

section Runs

variable {services : Services} {s s' : State}

theorem Command.Settles.of_iff {c : Command} {pg pg' : Postgres} {g : ConvId} {u : UserId}
    (h : c.Settles pg g u) (hrows : pg'.in_group g u ↔ pg.in_group g u) : c.Settles pg' g u := by
  obtain ⟨rfl, rfl, hcurrent⟩ := h
  exact ⟨rfl, rfl, hcurrent.trans hrows.symm⟩

theorem tracks_start : Tracks (server services).machine.start := by
  refine fun g u => .inl (iff_of_false ?_ ?_)
  · rintro ⟨⟩
  · rintro ⟨role, ⟨⟩⟩

theorem Tracks.spawn (h : Tracks s) (n : GroupRequest) :
    Tracks { s with tasks := s.tasks ++ [(n, serve services n)] } := by
  refine fun g u => (h g u).imp_right ?_
  rintro ⟨j, task, htask, hdue⟩
  refine ⟨j, task, ?_, hdue⟩
  rw [List.getElem?_append_left (List.getElem?_eq_some_iff.mp htask).1]
  exact htask

/-- A new user changes no group. -/
theorem Tracks.env (h : Tracks s) {e : Event} {shared : Shared}
    (henv : e.apply s.shared = some shared) : Tracks { s with shared := shared } := by
  obtain ⟨user_id⟩ := e
  obtain ⟨pg, hpg, rfl⟩ := Option.map_eq_some_iff.mp henv
  unfold Postgres.insert_user at hpg
  split at hpg
  · cases hpg
  · obtain rfl := Option.some.inj hpg
    exact h

section Resume

variable {i : Nat} {n : GroupRequest} {x y : GroupsCoroutine} {shared : Shared}

/-- A command that another request has to send is still due. -/
theorem due_of_other {j : Nat} {task : GroupRequest × GroupsCoroutine} {g : ConvId} {u : UserId}
    (hne : j ≠ i) (htask : s.tasks[j]? = some task)
    (hdue : ∃ c ∈ pending task.2, c.Settles shared.st.pg g u) :
    Due ⟨shared, s.tasks.set i (n, y)⟩ g u := by
  refine ⟨j, task, ?_, hdue⟩
  dsimp only
  rw [List.getElem?_set_ne hne.symm, htask]

theorem due_of_self {g : ConvId} {u : UserId} (htask : s.tasks[i]? = some (n, x))
    (hdue : ∃ c ∈ pending y, c.Settles shared.st.pg g u) :
    Due ⟨shared, s.tasks.set i (n, y)⟩ g u :=
  ⟨i, (n, y), List.getElem?_set_self (List.getElem?_eq_some_iff.mp htask).1, hdue⟩

/-- A transaction: where the rows change, a command of the request is due. -/
theorem Tracks.owes (h : Tracks s) (htask : s.tasks[i]? = some (n, x)) (hnone : pending x = [])
    (howes : Owes (pending y) s.shared.st shared.st) : Tracks ⟨shared, s.tasks.set i (n, y)⟩ := by
  intro g u
  rcases howes.rows g u with hrows | hdue
  · dsimp only
    rw [howes.group_set, hrows]
    refine (h g u).imp_right ?_
    rintro ⟨j, task, hj, c, hc, hsettles⟩
    have hne : j ≠ i := by
      rintro rfl
      rw [htask] at hj
      obtain rfl := Option.some.inj hj
      rw [hnone] at hc
      cases hc
    exact due_of_other hne hj ⟨c, hc, hsettles.of_iff hrows⟩
  · exact .inr (due_of_self htask hdue)

/-- A command: the user is settled by it, if it is current, or by the other one that is due. -/
theorem Tracks.sends (h : Tracks s) (htask : s.tasks[i]? = some (n, x)) {c : Command}
    (hpending : pending x = c :: pending y) (hsends : Sends c s.shared.st shared.st)
    (hok : c.Current s.shared.st.pg ∨ ∃ other ∈ s.tasks.eraseIdx i, ∃ d ∈ pending other.2,
      d.Same c ∧ d.Current s.shared.st.pg) : Tracks ⟨shared, s.tasks.set i (n, y)⟩ := by
  intro g u
  dsimp only
  have hrows : shared.st.pg.in_group g u ↔ s.shared.st.pg.in_group g u := by rw [hsends.pg]
  by_cases hkey : c.group_id = g ∧ c.user_id = u
  · obtain ⟨rfl, rfl⟩ := hkey
    rcases hok with hcurrent | ⟨other, hother, d, hd, ⟨hg, hu⟩, hcurrent⟩
    · exact .inl ((hsends.key.trans hcurrent).trans hrows.symm)
    · obtain ⟨j, hne, hj⟩ := List.mem_eraseIdx_iff_getElem?.mp hother
      refine .inr (due_of_other hne hj ⟨d, hd, hg, hu, ?_⟩)
      rw [hsends.pg]
      exact hcurrent
  · rw [hsends.rest g u hkey, hrows]
    refine (h g u).imp_right ?_
    rintro ⟨j, task, hj, d, hd, hsettles⟩
    by_cases hji : j = i
    · subst hji
      rw [htask] at hj
      obtain rfl := Option.some.inj hj
      rw [hpending] at hd
      rcases List.mem_cons.mp hd with rfl | hd
      · exact absurd ⟨hsettles.1, hsettles.2.1⟩ hkey
      · exact due_of_self htask ⟨d, hd, hsettles.of_iff hrows⟩
    · exact due_of_other hji hj ⟨d, hd, hsettles.of_iff hrows⟩

end Resume

theorem tracks_step {a : Label} (h : Sound services s) (ht : Tracks s) (hok : InOrder s a)
    (hstep : (server services).step s a = some s') : Tracks s' := by
  cases turn_of_step hstep with
  | spawn n => exact ht.spawn n
  | env henv => exact ht.env henv
  | @resume i now n call resume answer shared htask hexec =>
    rcases sends_or_owes (h.task i n _ htask) hexec with ⟨c, hpending, hsends⟩ | ⟨hnone, howes⟩
    · apply ht.sends htask hpending hsends
      apply hok c
      rw [htask, Option.bind_some, hpending]
      exact rfl
    · exact ht.owes htask hnone howes

/-- When no request is in flight, no command is due. -/
theorem Tracks.agrees (h : Tracks s) (hq : s.Settled) : Agrees s.shared.st := by
  have hset : ∀ g u, u ∈ s.shared.st.group_set g ↔ s.shared.st.pg.in_group g u := by
    intro g u
    rcases h g u with hset | ⟨j, ⟨n, x⟩, hj, c, hc, _⟩
    · exact hset
    · have hended := hq _ (List.mem_of_getElem? hj)
      cases x with
      | ret res => cases hc
      | throw => cases hc
      | await call resume => exact hended.elim
  intro g u
  unfold routing.Env.members routing.after
  dsimp only
  split
  · -- An empty set is one of a group without rows, so the fallback finds none either.
    simp [Postgres.in_group, and_assoc]
  · exact hset g u

/-- When no request is in flight, the send paths find exactly the rows of each group, if along the
run each command of Redis was current, or was followed by one that is. -/
theorem the_sets_agree_with_the_rows (services : Services) (as : List Label) {s : State}
    (hr : (server services).machine.run as = some s)
    (hm : (server services).machine.Meets InOrder as) (hq : s.Settled) : Agrees s.shared.st := by
  have hinv := Machine.invariant_of_meets (I := fun s => Sound services s ∧ Tracks s)
    ⟨sound_start, tracks_start⟩
    (fun s a s' h hok hstep => ⟨sound_step h.1 hstep, tracks_step h.1 h.2 hok hstep⟩) hm hr
  exact hinv.2.agrees hq

end Runs

/-! ## A member who is removed while he is added -/

section Examples

def removal : Label := .spawn (.remove (request_of "Bearer 3") [("id", "9"), ("uid", "3")])

/-- User 3 is added, and leaves after that. -/
def in_turn : List Label :=
  a_group ++ [addition, .resume 1 (some "now"), .resume 1 (some "now"), .resume 1 none, removal,
    .resume 2 (some "now"), .resume 2 none]

/-- User 3 leaves when his row is there, but his `SADD` is still to come. -/
def overlapping : List Label :=
  a_group ++ [addition, .resume 1 (some "now"), .resume 1 (some "now"), removal,
    .resume 2 (some "now"), .resume 2 none, .resume 1 none]

theorem a_member_who_leaves_is_gone :
    ∃ s, (server small_services).machine.run in_turn = some s ∧ Agrees s.shared.st :=
  ⟨_, rfl, the_sets_agree_with_the_rows small_services in_turn rfl (by decide) (by decide)⟩

theorem a_member_who_has_left_is_still_found :
    ∃ s, (server small_services).machine.run overlapping = some s ∧ s.Settled ∧
      ¬ Agrees s.shared.st :=
  ⟨_, rfl, by decide, fun h => absurd (h 9 3) (by decide)⟩

end Examples

end loomic.group_cache
