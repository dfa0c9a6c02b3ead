-- Refresh tokens under interleaving: POST /auth/refresh looks a token up in
-- one transaction and rotates it in another, and other requests with the same
-- token are served between the two.
import Loomic.AuthHandler
import Loomic.Lib.Scheduling

open coroutines loomic.auth_handler loomic.frame loomic.http_server loomic.json machines scheduling

namespace loomic.refresh_tokens

/-! ## The table -/

structure TokenRow where
  token : String
  user_id : UserId
  expires_at : Nat
  deriving DecidableEq

inductive Change
  | rotation
  | logout
  deriving DecidableEq

/-- A transaction that has committed: which request made it, and for which token of whom. -/
structure Commit where
  request : Nat
  change : Change
  token : String
  uid : UserId
  deriving DecidableEq

/-- The table `refresh_tokens` and the clock, in seconds. `commits` and `seen` are not in the
code: what has committed, oldest first, and the tokens that the table was ever asked about. -/
structure Tokens where
  rows : List TokenRow
  now : Nat
  commits : List Commit
  seen : List String

def Tokens.empty : Tokens := { rows := [], now := 0, commits := [], seen := [] }

/-- `INSERT ... NOW() + INTERVAL '30 days'`. -/
def Tokens.insert (db : Tokens) (token : String) (uid : UserId) : Tokens :=
  { db with
    rows := db.rows ++ [⟨token, uid, db.now + 30 * 24 * 60 * 60⟩]
    seen := token :: db.seen }

/-- The rows of a token, or of a token of one user, go. -/
def Tokens.delete (db : Tokens) (p : TokenRow → Bool) (commit : Commit) : Tokens :=
  { db with
    rows := db.rows.filter fun row => !p row
    commits := db.commits ++ [commit]
    seen := commit.token :: db.seen }

/-- A transaction of request `i`, which may throw instead. A new token is one that nobody has
seen. The other calls of the handlers do not touch the table. -/
def exec (i : Nat) (throws : Bool) : (call : AuthCall) → Tokens → Option (call.Answer × Tokens)
  | .select_refresh_token token, db =>
    if throws then some (none, db)
    else some (some ((db.rows.find? fun row => row.token == token ∧ db.now < row.expires_at).map
      (·.user_id)), { db with seen := token :: db.seen })
  | .delete_refresh_token token uid, db =>
    if throws then some (none, db)
    else some (some (), db.delete (fun row => row.token == token ∧ row.user_id = uid)
      ⟨i, .logout, token, uid⟩)
  | .rotate_refresh_token old_token new_refresh uid, db =>
    if throws then some (none, db)
    else if new_refresh ∈ db.seen then none
    else some (some (), (db.delete (fun row => row.token == old_token)
      ⟨i, .rotation, old_token, uid⟩).insert new_refresh uid)
  | .select_user _ _, _ | .hash _, _ | .insert_user _ _ _ _, _ | .select_credentials _, _
  | .verify _ _, _ | .insert_refresh_token _ _, _ => none

/-! ## The requests -/

inductive AuthRequest
  | refresh (req : Request) (gen : Generated)
  | logout (req : Request)

/-- A login gives a token that nobody has seen to a user, or time passes. -/
inductive Event
  | login (token : String) (uid : UserId)
  | wait (seconds : Nat)

def serve (services : Services) : AuthRequest → AuthCoroutine
  | .refresh req gen => refresh services gen req []
  | .logout req => logout services req []

def Event.apply : Event → Tokens → Option Tokens
  | .login token uid, db => if token ∈ db.seen then none else some (db.insert token uid)
  | .wait seconds, db => some { db with now := db.now + seconds }

def server (services : Services) :
    System Tokens AuthRequest Bool Event AuthCall AuthCall.Answer Response where
  start := .empty
  spawn := serve services
  exec := fun i _ => exec i
  env := Event.apply

abbrev State := Pool Tokens AuthRequest AuthCall AuthCall.Answer Response

/-! ## The law -/

/-- The token in the body. -/
def presented (services : Services) (req : Request) : Option String :=
  (services.parse req.body).bind (·.value_string "refresh_token")

/-- The token that a refresh has exchanged for a new one: its reply is a success. -/
def yields (services : Services) : AuthRequest × AuthCoroutine → Option String
  | (.refresh req _, .ret res) => if res.status = .ok then presented services req else none
  | _ => none

/-- A logout of the user before the rotation of the same token. -/
def Revokes (c d : Commit) : Prop :=
  c.change = .logout ∧ d.change = .rotation ∧ c.token = d.token ∧ c.uid = d.uid

instance (c d : Commit) : Decidable (Revokes c d) := by unfold Revokes; infer_instance

/-- At most one refresh yields a new token for a token, and none after the logout has deleted
it. -/
structure SingleUse (services : Services) (s : State) : Prop where
  once : (s.tasks.filterMap (yields services)).Nodup
  revoked : s.shared.commits.Pairwise fun c d => ¬ Revokes c d

instance decidable_singleUse (services : Services) (s : State) :
    Decidable (SingleUse services s) :=
  decidable_of_iff (_ ∧ _) ⟨fun h => ⟨h.1, h.2⟩, fun h => ⟨h.once, h.revoked⟩⟩

/-- A row of the token, for the user. -/
def Tokens.has (db : Tokens) (token : String) (uid : UserId) : Prop :=
  ∃ row ∈ db.rows, row.token = token ∧ row.user_id = uid

instance (db : Tokens) (token : String) (uid : UserId) : Decidable (db.has token uid) := by
  unfold Tokens.has
  infer_instance

/-- The token and its user, for a task that stands before its rotation. -/
def rotation : AuthCoroutine → Option (String × UserId)
  | .await (.rotate_refresh_token old_token _ uid) _ => some (old_token, uid)
  | _ => none

/-- A rotation still finds the row that the request has looked up. -/
def StillThere (s : State) : Label AuthRequest Bool Event → Prop
  | .resume i false => ∀ p ∈ s.tasks[i]?.bind fun task => rotation task.2, s.shared.has p.1 p.2
  | _ => True

instance decidable_stillThere (s : State) : ∀ a, Decidable (StillThere s a)
  | .resume _ false => inferInstanceAs (Decidable (∀ p ∈ _, _))
  | .resume _ true | .spawn _ | .env _ => isTrue trivial

/-! ## The history of a token -/

/-- A commit takes the row of a token of a user. -/
def Takes (c : Commit) (token : String) (uid : UserId) : Prop :=
  c.token = token ∧ (c.change = .rotation ∨ c.uid = uid)

def Gone (db : Tokens) (token : String) (uid : UserId) : Prop := ∃ c ∈ db.commits, Takes c token uid

/-- A row that a request has found is there, or was taken. -/
def Found (db : Tokens) (token : String) (uid : UserId) : Prop :=
  db.has token uid ∨ Gone db token uid

/-- The later commit is a rotation of what the earlier one took. -/
def Blocks (c d : Commit) : Prop := d.change = .rotation ∧ Takes c d.token d.uid

/-- A token never comes back, and no rotation takes what was taken. -/
structure Consistent (db : Tokens) : Prop where
  seen_rows : ∀ row ∈ db.rows, row.token ∈ db.seen
  seen_commits : ∀ c ∈ db.commits, c.token ∈ db.seen
  live : ∀ row ∈ db.rows, ¬ Gone db row.token row.user_id
  single : db.commits.Pairwise fun c d => ¬ Blocks c d

/-- What a task knows stays true when the table changes like this. -/
structure Grows (db db' : Tokens) : Prop where
  commits : ∀ c ∈ db.commits, c ∈ db'.commits
  found : ∀ token uid, db.has token uid → Found db' token uid

section History

variable {db db' : Tokens} {token : String} {uid : UserId}

theorem takes_rotation {i : Nat} {old_token : String} {owner : UserId} :
    Takes ⟨i, .rotation, old_token, owner⟩ token uid ↔ token = old_token := by
  unfold Takes
  constructor
  · rintro ⟨htoken, _⟩
    exact htoken.symm
  · rintro rfl
    exact ⟨rfl, .inl rfl⟩

theorem takes_logout {i : Nat} {old_token : String} {owner : UserId} :
    Takes ⟨i, .logout, old_token, owner⟩ token uid ↔ token = old_token ∧ uid = owner := by
  unfold Takes
  constructor
  · rintro ⟨htoken, hrotation | howner⟩
    · cases hrotation
    · exact ⟨htoken.symm, howner.symm⟩
  · rintro ⟨rfl, rfl⟩
    exact ⟨rfl, .inr rfl⟩

theorem Grows.gone (h : Grows db db') (hg : Gone db token uid) : Gone db' token uid := by
  obtain ⟨c, hc, htakes⟩ := hg
  exact ⟨c, h.commits c hc, htakes⟩

theorem Grows.stays (h : Grows db db') (hf : Found db token uid) : Found db' token uid := by
  rcases hf with hf | hf
  · exact h.found token uid hf
  · exact .inr (h.gone hf)

theorem Grows.trans {db'' : Tokens} (h : Grows db db') (h' : Grows db' db'') :
    Grows db db'' where
  commits := fun c hc => h'.commits c (h.commits c hc)
  found := fun token uid hf => h'.stays (h.found token uid hf)

theorem grows_refl (db : Tokens) : Grows db db := ⟨fun _ hc => hc, fun _ _ hf => .inl hf⟩

theorem grows_see (db : Tokens) (token : String) :
    Grows db { db with seen := token :: db.seen } :=
  ⟨fun _ hc => hc, fun _ _ hf => .inl hf⟩

theorem grows_wait (db : Tokens) (now : Nat) : Grows db { db with now := now } :=
  ⟨fun _ hc => hc, fun _ _ hf => .inl hf⟩

theorem grows_insert (db : Tokens) (token : String) (uid : UserId) :
    Grows db (db.insert token uid) where
  commits := fun _ hc => hc
  found := by
    rintro t u ⟨row, hrow, hkey⟩
    exact .inl ⟨row, List.mem_append_left _ hrow, hkey⟩

/-- The rows that a commit deletes are the ones that it takes. -/
theorem grows_delete {p : TokenRow → Bool} {commit : Commit}
    (hp : ∀ row ∈ db.rows, p row = true ↔ Takes commit row.token row.user_id) :
    Grows db (db.delete p commit) where
  commits := fun _ hc => List.mem_append_left _ hc
  found := by
    rintro t u ⟨row, hrow, rfl, rfl⟩
    by_cases hdel : p row = true
    · exact .inr ⟨commit, by simp [Tokens.delete], (hp row hrow).mp hdel⟩
    · refine .inl ⟨row, ?_, rfl, rfl⟩
      simp [Tokens.delete, hrow, hdel]

theorem consistent_empty : Consistent .empty where
  seen_rows := by intro row hrow; cases hrow
  seen_commits := by intro c hc; cases hc
  live := by intro row hrow; cases hrow
  single := List.Pairwise.nil

theorem Consistent.see (h : Consistent db) (token : String) :
    Consistent { db with seen := token :: db.seen } where
  seen_rows := fun row hrow => List.mem_cons_of_mem _ (h.seen_rows row hrow)
  seen_commits := fun c hc => List.mem_cons_of_mem _ (h.seen_commits c hc)
  live := h.live
  single := h.single

theorem Consistent.wait (h : Consistent db) (now : Nat) : Consistent { db with now := now } where
  seen_rows := h.seen_rows
  seen_commits := h.seen_commits
  live := h.live
  single := h.single

/-- A token that nobody has seen is not gone. -/
theorem Consistent.insert (h : Consistent db) (hnew : token ∉ db.seen) :
    Consistent (db.insert token uid) where
  seen_rows := by
    intro row hrow
    rcases List.mem_append.mp hrow with hrow | hrow
    · exact List.mem_cons_of_mem _ (h.seen_rows row hrow)
    · obtain rfl := List.mem_singleton.mp hrow
      exact List.mem_cons_self
  seen_commits := fun c hc => List.mem_cons_of_mem _ (h.seen_commits c hc)
  live := by
    intro row hrow hgone
    rcases List.mem_append.mp hrow with hrow | hrow
    · exact h.live row hrow hgone
    · obtain rfl := List.mem_singleton.mp hrow
      obtain ⟨c, hc, htoken, _⟩ := hgone
      apply hnew
      rw [← show c.token = token from htoken]
      exact h.seen_commits c hc
  single := h.single

theorem Consistent.delete (h : Consistent db) {p : TokenRow → Bool} {commit : Commit}
    (hp : ∀ row ∈ db.rows, p row = true ↔ Takes commit row.token row.user_id)
    (hblocks : ∀ c ∈ db.commits, ¬ Blocks c commit) : Consistent (db.delete p commit) where
  seen_rows := by
    intro row hrow
    exact List.mem_cons_of_mem _ (h.seen_rows row (List.mem_filter.mp hrow).1)
  seen_commits := by
    intro c hc
    rcases List.mem_append.mp hc with hc | hc
    · exact List.mem_cons_of_mem _ (h.seen_commits c hc)
    · obtain rfl := List.mem_singleton.mp hc
      exact List.mem_cons_self
  live := by
    rintro row hrow ⟨c, hc, htakes⟩
    obtain ⟨hmem, hkept⟩ := List.mem_filter.mp hrow
    rcases List.mem_append.mp hc with hc | hc
    · exact h.live row hmem ⟨c, hc, htakes⟩
    · obtain rfl := List.mem_singleton.mp hc
      rw [(hp row hmem).mpr htakes] at hkept
      cases hkept
  single := by
    unfold Tokens.delete
    rw [List.pairwise_append]
    refine ⟨h.single, List.pairwise_singleton _ _, ?_⟩
    intro c hc d hd
    obtain rfl := List.mem_singleton.mp hd
    exact hblocks c hc

/-- A row that is there was not taken. -/
theorem Consistent.not_gone (h : Consistent db) (hrow : db.has token uid) :
    ¬ Gone db token uid := by
  obtain ⟨row, hmem, rfl, rfl⟩ := hrow
  exact h.live row hmem

end History

/-! ## Where a request stands -/

/-- What is known of a request at each of its calls, and at its end. -/
inductive Stage (services : Services) (db : Tokens) (i : Nat) : AuthRequest → AuthCoroutine → Prop
  | select {req : Request} {gen : Generated} {old_token : String}
    (hreq : presented services req = some old_token) :
    Stage services db i (.refresh req gen) (refresh_select services gen old_token)
  | rotate {req : Request} {gen : Generated} {old_token : String} {uid : UserId}
    (hreq : presented services req = some old_token) (hfound : Found db old_token uid) :
    Stage services db i (.refresh req gen) (refresh_rotate services gen old_token uid)
  | rotated {req : Request} {gen : Generated} {old_token : String} {uid : UserId} {res : Response}
    (hreq : presented services req = some old_token)
    (hcommit : ⟨i, .rotation, old_token, uid⟩ ∈ db.commits) :
    Stage services db i (.refresh req gen) (.ret res)
  | delete {req : Request} {token : String} {uid : UserId} :
    Stage services db i (.logout req) (logout_delete token uid)
  | logged_out {req : Request} {res : Response} : Stage services db i (.logout req) (.ret res)
  | refused {n : AuthRequest} {res : Response} (hstatus : res.status ≠ .ok) :
    Stage services db i n (.ret res)
  | raised {n : AuthRequest} : Stage services db i n .throw

section Stages

variable {services : Services} {db db' : Tokens} {i : Nat} {n : AuthRequest} {x : AuthCoroutine}

theorem Stage.mono (h : Stage services db i n x) (hg : Grows db db') :
    Stage services db' i n x := by
  cases h with
  | select hreq => exact .select hreq
  | rotate hreq hfound => exact .rotate hreq (hg.stays hfound)
  | rotated hreq hcommit => exact .rotated hreq (hg.commits _ hcommit)
  | delete => exact .delete
  | logged_out => exact .logged_out
  | refused hstatus => exact .refused hstatus
  | raised => exact .raised

/-- A request begins with the checks of its body, and then waits for the table. -/
theorem stage_refresh (req : Request) (gen : Generated) :
    Stage services db i (.refresh req gen) (refresh services gen req []) := by
  unfold refresh with_body
  cases hbody : services.parse req.body with
  | none => exact .refused (by decide)
  | some body =>
    unfold with_value
    dsimp only
    cases hvalue : body.value_string "refresh_token" with
    | none => exact .raised
    | some old_token =>
      simp only [Coroutine.of]
      split
      · exact .refused (by decide)
      · apply Stage.select
        unfold presented
        rw [hbody]
        exact hvalue

theorem stage_logout (req : Request) :
    Stage services db i (.logout req) (logout services req []) := by
  unfold logout with_user with_body
  cases require_auth services req.authorization with
  | none => exact .logged_out
  | some uid =>
    dsimp only
    cases services.parse req.body with
    | none => exact .logged_out
    | some body =>
      unfold with_value
      dsimp only
      cases body.value_string "refresh_token" with
      | none => exact .raised
      | some token =>
        simp only [Coroutine.of]
        split
        · exact .logged_out
        · exact .delete

theorem stage_serve (n : AuthRequest) : Stage services db i n (serve services n) := by
  cases n with
  | refresh req gen => exact stage_refresh req gen
  | logout req => exact stage_logout req

end Stages

/-! ## What a transaction does -/

section Transactions

variable {db db' : Tokens} {i : Nat} {throws : Bool} {token : String} {uid : UserId}

/-- A transaction throws and changes nothing, or commits. -/
theorem throws_or {α : Type} {a answer : Option α} {after : Tokens}
    (h : (if throws then some (none, db) else some (a, after)) = some (answer, db')) :
    answer = none ∧ db' = db ∨ answer = a ∧ db' = after := by
  split at h
  · obtain ⟨rfl, rfl⟩ := Prod.mk.inj (Option.some.inj h)
    exact .inl ⟨rfl, rfl⟩
  · obtain ⟨rfl, rfl⟩ := Prod.mk.inj (Option.some.inj h)
    exact .inr ⟨rfl, rfl⟩

theorem exec_select {answer : Option (Option UserId)}
    (hexec : exec i throws (.select_refresh_token token) db = some (answer, db')) :
    answer = none ∧ db' = db ∨
      answer = some ((db.rows.find? fun row => row.token == token ∧ db.now < row.expires_at).map
        (·.user_id)) ∧ db' = { db with seen := token :: db.seen } :=
  throws_or hexec

theorem exec_rotate {new_refresh : String} {answer : Option Unit}
    (hexec : exec i throws (.rotate_refresh_token token new_refresh uid) db =
      some (answer, db')) :
    throws = true ∧ answer = none ∧ db' = db ∨
      throws = false ∧ answer = some () ∧ new_refresh ∉ db.seen ∧
        db' = (db.delete (fun row => row.token == token) ⟨i, .rotation, token, uid⟩).insert
          new_refresh uid := by
  unfold exec at hexec
  dsimp only at hexec
  cases throws with
  | true =>
    obtain ⟨rfl, rfl⟩ := Prod.mk.inj (Option.some.inj hexec)
    exact .inl ⟨rfl, rfl, rfl⟩
  | false =>
    rw [if_neg Bool.false_ne_true] at hexec
    split at hexec
    · cases hexec
    · rename_i hnew
      obtain ⟨rfl, rfl⟩ := Prod.mk.inj (Option.some.inj hexec)
      exact .inr ⟨rfl, rfl, hnew, rfl⟩

theorem exec_delete {answer : Option Unit}
    (hexec : exec i throws (.delete_refresh_token token uid) db = some (answer, db')) :
    answer = none ∧ db' = db ∨
      answer = some () ∧ db' = db.delete (fun row => row.token == token ∧ row.user_id = uid)
        ⟨i, .logout, token, uid⟩ :=
  throws_or hexec

end Transactions

/-! ## One step of a request -/

section Steps

variable {services : Services} {db db' : Tokens} {i : Nat} {throws : Bool}

/-- The lookup finds a row of the token, which has not expired, or gives up. -/
theorem step_select {req : Request} {gen : Generated} {old_token : String}
    {answer : Option (Option UserId)} (h : Consistent db)
    (hreq : presented services req = some old_token)
    (hexec : exec i throws (.select_refresh_token old_token) db = some (answer, db')) :
    Consistent db' ∧ Grows db db' ∧ ∀ x, refresh_select services gen old_token =
      .await (.select_refresh_token old_token) x →
        Stage services db' i (.refresh req gen) (x answer) := by
  rcases exec_select hexec with ⟨rfl, rfl⟩ | ⟨rfl, rfl⟩
  · refine ⟨h, grows_refl db', ?_⟩
    rintro _ ⟨⟩
    exact .refused (by decide)
  refine ⟨h.see old_token, grows_see db old_token, ?_⟩
  rintro _ ⟨⟩
  cases hfind : db.rows.find? fun row => row.token == old_token ∧ db.now < row.expires_at with
  | none => exact .refused (by decide)
  | some row =>
    have hkey := List.find?_some hfind
    simp only [beq_iff_eq, Bool.decide_and, Bool.and_eq_true, decide_eq_true_eq] at hkey
    exact .rotate hreq (.inl ⟨row, List.mem_of_find?_eq_some hfind, hkey.1, rfl⟩)

/-- The rotation takes the row that was found. -/
theorem step_rotate {req : Request} {gen : Generated} {old_token new_refresh : String}
    {uid : UserId} {answer : Option Unit} (h : Consistent db)
    (hreq : presented services req = some old_token)
    (hthere : throws = false → db.has old_token uid)
    (hexec : exec i throws (.rotate_refresh_token old_token new_refresh uid) db =
      some (answer, db')) :
    Consistent db' ∧ Grows db db' ∧ ∀ x, refresh_rotate services gen old_token uid =
      .await (.rotate_refresh_token old_token new_refresh uid) x →
        Stage services db' i (.refresh req gen) (x answer) := by
  rcases exec_rotate hexec with ⟨-, rfl, rfl⟩ | ⟨hthrows, rfl, hnew, rfl⟩
  · refine ⟨h, grows_refl db', ?_⟩
    rintro _ ⟨⟩
    exact .refused (by decide)
  have hp : ∀ row ∈ db.rows, (row.token == old_token) = true ↔
      Takes ⟨i, .rotation, old_token, uid⟩ row.token row.user_id := by
    intro row _
    rw [takes_rotation, beq_iff_eq]
  have hrow := hthere hthrows
  have hblocks : ∀ c ∈ db.commits, ¬ Blocks c ⟨i, .rotation, old_token, uid⟩ := by
    rintro c hc ⟨_, htakes⟩
    exact h.not_gone hrow ⟨c, hc, htakes⟩
  have hold : old_token ∈ db.seen := by
    obtain ⟨row, hmem, rfl, _⟩ := hrow
    exact h.seen_rows row hmem
  refine ⟨(h.delete hp hblocks).insert ?_, (grows_delete hp).trans (grows_insert _ _ _), ?_⟩
  · intro hmem
    rcases List.mem_cons.mp hmem with rfl | hmem
    · exact hnew hold
    · exact hnew hmem
  · rintro _ ⟨⟩
    exact .rotated hreq (List.mem_append_right db.commits (List.mem_singleton.mpr rfl))

theorem step_delete {req : Request} {token : String} {uid : UserId} {answer : Option Unit}
    (h : Consistent db)
    (hexec : exec i throws (.delete_refresh_token token uid) db = some (answer, db')) :
    Consistent db' ∧ Grows db db' ∧ ∀ x, logout_delete token uid =
      .await (.delete_refresh_token token uid) x →
        Stage services db' i (.logout req) (x answer) := by
  rcases exec_delete hexec with ⟨rfl, rfl⟩ | ⟨rfl, rfl⟩
  · refine ⟨h, grows_refl db', ?_⟩
    rintro _ ⟨⟩
    exact .logged_out
  have hp : ∀ row ∈ db.rows, decide (row.token == token ∧ row.user_id = uid) = true ↔
      Takes ⟨i, .logout, token, uid⟩ row.token row.user_id := by
    intro row _
    rw [takes_logout, decide_eq_true_eq, beq_iff_eq]
  refine ⟨h.delete hp ?_, grows_delete hp, ?_⟩
  · rintro c _ ⟨hrotation, _⟩
    cases hrotation
  · rintro _ ⟨⟩
    exact .logged_out

/-- A step of a request keeps what is known, if its rotation still finds the row. -/
theorem stage_step {n : AuthRequest} {call : AuthCall} {resume : call.Answer → AuthCoroutine}
    {answer : call.Answer} (h : Consistent db) (hstage : Stage services db i n (.await call resume))
    (hthere : throws = false → ∀ p ∈ rotation (.await call resume), db.has p.1 p.2)
    (hexec : exec i throws call db = some (answer, db')) :
    Consistent db' ∧ Grows db db' ∧ Stage services db' i n (resume answer) := by
  generalize hx : Coroutine.await call resume = x at hstage hthere
  cases hstage with
  | select hreq =>
    cases hx
    obtain ⟨hc, hg, hnext⟩ := step_select h hreq hexec
    exact ⟨hc, hg, hnext _ rfl⟩
  | rotate hreq hfound =>
    cases hx
    obtain ⟨hc, hg, hnext⟩ := step_rotate h hreq (fun hthrows => hthere hthrows _ rfl) hexec
    exact ⟨hc, hg, hnext _ rfl⟩
  | delete =>
    cases hx
    obtain ⟨hc, hg, hnext⟩ := step_delete h hexec
    exact ⟨hc, hg, hnext _ rfl⟩
  | rotated hreq hcommit => cases hx
  | logged_out => cases hx
  | refused hstatus => cases hx
  | raised => cases hx

/-- What a step commits. A rotation is at once a success of its request. -/
theorem commits_step {n : AuthRequest} {call : AuthCall} {resume : call.Answer → AuthCoroutine}
    {answer : call.Answer} (hstage : Stage services db i n (.await call resume))
    (hexec : exec i throws call db = some (answer, db')) :
    ∀ c ∈ db'.commits, c ∈ db.commits ∨
      c.request = i ∧
        (c.change = .rotation → yields services (n, resume answer) = some c.token) := by
  generalize hx : Coroutine.await call resume = x at hstage
  cases hstage with
  | select hreq =>
    cases hx
    rcases exec_select hexec with ⟨-, rfl⟩ | ⟨-, rfl⟩
    · exact fun c hc => .inl hc
    · exact fun c hc => .inl hc
  | rotate hreq hfound =>
    cases hx
    rcases exec_rotate hexec with ⟨-, -, rfl⟩ | ⟨-, rfl, -, rfl⟩
    · exact fun c hc => .inl hc
    intro c hc
    refine (List.mem_append.mp hc).imp_right fun hc => ?_
    obtain rfl := List.mem_singleton.mp hc
    exact ⟨rfl, fun _ => hreq⟩
  | delete =>
    cases hx
    rcases exec_delete hexec with ⟨-, rfl⟩ | ⟨-, rfl⟩
    · exact fun c hc => .inl hc
    intro c hc
    refine (List.mem_append.mp hc).imp_right fun hc => ?_
    obtain rfl := List.mem_singleton.mp hc
    refine ⟨rfl, fun hrotation => ?_⟩
    cases hrotation
  | rotated hreq hcommit => cases hx
  | logged_out => cases hx
  | refused hstatus => cases hx
  | raised => cases hx

end Steps

/-! ## The invariant of a run -/

/-- Each rotation that has committed is the success of its request. -/
def Backed (services : Services) (s : State) : Prop :=
  ∀ c ∈ s.shared.commits, c.change = .rotation →
    ∃ task, s.tasks[c.request]? = some task ∧ yields services task = some c.token

structure Sound (services : Services) (s : State) : Prop where
  holds : Holds Consistent (Stage services) s
  backed : Backed services s

section Runs

variable {services : Services} {s s' : State}

/-- No two elements give the same value. -/
theorem nodup_filterMap_iff {α β : Type} {f : α → Option β} {l : List α} :
    (l.filterMap f).Nodup ↔ ∀ (i j : Nat) (a b : α) (t : β), l[i]? = some a → l[j]? = some b →
      f a = some t → f b = some t → i = j := by
  unfold List.Nodup
  rw [List.pairwise_filterMap, List.pairwise_iff_getElem]
  constructor
  · intro h i j a b t ha hb hfa hfb
    obtain ⟨hi, rfl⟩ := List.getElem?_eq_some_iff.mp ha
    obtain ⟨hj, rfl⟩ := List.getElem?_eq_some_iff.mp hb
    rcases Nat.lt_trichotomy i j with hlt | heq | hlt
    · exact absurd rfl (h i j hi hj hlt t hfa t hfb)
    · exact heq
    · exact absurd rfl (h j i hj hi hlt t hfb t hfa)
  · rintro h i j hi hj hlt t hfa t' hfb rfl
    have hij := h i j _ _ t (List.getElem?_eq_getElem hi) (List.getElem?_eq_getElem hj) hfa hfb
    omega

theorem yields_await {n : AuthRequest} {call : AuthCall} {resume : call.Answer → AuthCoroutine} :
    yields services (n, .await call resume) = none := by
  cases n <;> rfl

theorem sound_start : Sound services (server services).machine.start where
  holds := holds_start _ consistent_empty
  backed := by intro c hc; cases hc

theorem Sound.spawn (h : Sound services s) (n : AuthRequest) :
    Sound services { s with tasks := s.tasks ++ [(n, serve services n)] } where
  holds := h.holds.spawn (stage_serve n)
  backed := by
    intro c hc hrotation
    obtain ⟨task, htask, hyields⟩ := h.backed c hc hrotation
    refine ⟨task, ?_, hyields⟩
    rw [List.getElem?_append_left (List.getElem?_eq_some_iff.mp htask).1]
    exact htask

theorem Sound.env (h : Sound services s) {e : Event} {db : Tokens}
    (henv : e.apply s.shared = some db) : Sound services { s with shared := db } := by
  cases e with
  | login token uid =>
    unfold Event.apply at henv
    dsimp only at henv
    split at henv
    · cases henv
    rename_i hnew
    obtain rfl := Option.some.inj henv
    have hg := grows_insert s.shared token uid
    exact ⟨h.holds.env (h.holds.shared.insert hnew) fun _ _ _ _ hstage => hstage.mono hg, h.backed⟩
  | wait seconds =>
    obtain rfl := Option.some.inj henv
    have hg := grows_wait s.shared (s.shared.now + seconds)
    exact ⟨h.holds.env (h.holds.shared.wait _) fun _ _ _ _ hstage => hstage.mono hg, h.backed⟩

theorem Sound.resume (h : Sound services s) {i : Nat} {throws : Bool} {n : AuthRequest}
    {call : AuthCall} {resume : call.Answer → AuthCoroutine} {answer : call.Answer} {db : Tokens}
    (htask : s.tasks[i]? = some (n, .await call resume))
    (hexec : exec i throws call s.shared = some (answer, db))
    (hthere : throws = false → ∀ p ∈ rotation (.await call resume), s.shared.has p.1 p.2) :
    Sound services ⟨db, s.tasks.set i (n, resume answer)⟩ := by
  have hstage := h.holds.task i n _ htask
  obtain ⟨hc, hg, hnext⟩ := stage_step h.holds.shared hstage hthere hexec
  refine ⟨h.holds.resume hc hnext fun _ _ _ _ _ hother => hother.mono hg, ?_⟩
  have hi : i < s.tasks.length := (List.getElem?_eq_some_iff.mp htask).1
  intro c hcommit hrotation
  dsimp only at hcommit ⊢
  rcases commits_step hstage hexec c hcommit with hold | ⟨rfl, hnew⟩
  · obtain ⟨task, htask', hyields⟩ := h.backed c hold hrotation
    refine ⟨task, ?_, hyields⟩
    rw [List.getElem?_set_ne, htask']
    rintro rfl
    rw [htask] at htask'
    obtain rfl := Option.some.inj htask'
    rw [yields_await] at hyields
    cases hyields
  · exact ⟨_, List.getElem?_set_self hi, hnew hrotation⟩

theorem sound_step {a : Label AuthRequest Bool Event} (h : Sound services s)
    (hok : StillThere s a) (hstep : (server services).step s a = some s') : Sound services s' := by
  cases turn_of_step hstep with
  | spawn n => exact h.spawn n
  | env henv => exact h.env henv
  | @resume i throws n call resume answer db htask hexec =>
    apply h.resume htask hexec
    rintro rfl p hp
    apply hok p
    rw [htask]
    exact hp

/-- A rotation of what was taken is a second use, or a use after the logout. -/
theorem Sound.not_gone (h : Sound services s) {i : Nat} {req : Request} {gen : Generated}
    {old_token : String} {uid : UserId} {answer : Option Unit} {db : Tokens}
    (hreq : presented services req = some old_token)
    (htask : s.tasks[i]? = some (.refresh req gen, refresh_rotate services gen old_token uid))
    (hexec : exec i false (.rotate_refresh_token old_token gen.refresh_token uid) s.shared =
      some (answer, db)) {res : Response} (hres : res.status = .ok)
    (hs : SingleUse services ⟨db, s.tasks.set i (.refresh req gen, .ret res)⟩) :
    ¬ Gone s.shared old_token uid := by
  rintro ⟨c, hc, htoken, htakes⟩
  rcases exec_rotate hexec with ⟨hthrows, _⟩ | ⟨-, -, -, rfl⟩
  · cases hthrows
  have hi : i < s.tasks.length := (List.getElem?_eq_some_iff.mp htask).1
  cases hchange : c.change with
  | logout =>
    have huid : c.uid = uid := by
      rcases htakes with hrotation | huid
      · rw [hchange] at hrotation
        cases hrotation
      · exact huid
    refine (List.pairwise_append.mp hs.revoked).2.2 c hc _ (List.mem_singleton.mpr rfl) ?_
    exact ⟨hchange, rfl, htoken, huid⟩
  | rotation =>
    obtain ⟨task, htask', hyields⟩ := h.backed c hc hchange
    have hne : c.request ≠ i := by
      rintro rfl
      rw [htask] at htask'
      obtain rfl := Option.some.inj htask'
      cases hyields
    have hnew : yields services (.refresh req gen, .ret res) = some old_token := by
      unfold yields
      dsimp only
      rw [if_pos hres, hreq]
    apply hne
    apply nodup_filterMap_iff.mp hs.once c.request i task (.refresh req gen, .ret res) old_token
    · rw [List.getElem?_set_ne hne.symm, htask']
    · exact List.getElem?_set_self hi
    · rw [hyields, htoken]
    · exact hnew

end Runs

/-! ## Two requests with one token -/

section Examples

/-- Every body presents the token `t`. -/
def small_services : Services where
  verify := fun _ => none
  issue := fun _ => "access"
  parse := fun _ => some (.object [("refresh_token", .string "t")])

def refresh_with (new_refresh : String) : Label AuthRequest Bool Event :=
  .spawn (.refresh { method := .post, target := "/auth/refresh" } { refresh_token := new_refresh })

/-- The second request looks the token up after the first one has rotated it. -/
def in_turn : List (Label AuthRequest Bool Event) :=
  [.env (.login "t" 7), refresh_with "u", .resume 0 false, .resume 0 false, refresh_with "v",
    .resume 1 false]

/-- Both look it up before either rotates it. -/
def overlapping : List (Label AuthRequest Bool Event) :=
  [.env (.login "t" 7), refresh_with "u", refresh_with "v", .resume 0 false, .resume 1 false,
    .resume 0 false, .resume 1 false]

end Examples

end loomic.refresh_tokens
