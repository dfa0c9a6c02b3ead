-- The accounts: POST /auth/register asks for the names in one transaction and
-- inserts the account in another, and POST /auth/login finds the account and
-- checks the password. Other requests are served between these calls.
import Loomic.AuthHandler
import Loomic.Lib.Scheduling
import Loomic.PasswordService

open coroutines loomic.auth_handler loomic.frame loomic.http_server loomic.json machines scheduling
open loomic.password_service (ITERATIONS Octets Pbkdf2 SALT_LEN to_int)

namespace loomic.accounts

/-! ## The tables -/

/-- A row of `users`. The number of the request that inserted it is not in the table. -/
structure Account where
  id : UserId
  username : String
  email : String
  password_hash : String
  request : Nat

/-- `users` and `refresh_tokens`, as far as they are read. -/
structure Users where
  rows : List Account
  tokens : List (String × UserId)

/-- The primary key and the two columns that are `UNIQUE`. -/
def Account.Apart (a b : Account) : Prop :=
  a.id ≠ b.id ∧ a.username ≠ b.username ∧ a.email ≠ b.email

instance (a b : Account) : Decidable (a.Apart b) := by
  unfold Account.Apart
  infer_instance

instance : Std.Symm Account.Apart := ⟨fun _ _ h => ⟨h.1.symm, h.2.1.symm, h.2.2.symm⟩⟩

/-- A transaction may throw, and may throw although it has committed. -/
inductive Outcome
  | commits
  | throws
  | lost
  deriving DecidableEq

/-- How a call ends, with the octets that `RAND_bytes` gives. -/
structure Choice where
  outcome : Outcome
  salt : Octets SALT_LEN

section Calls

variable (pbkdf2 : Pbkdf2)

/-- A statement that writes: the table after it, unless a constraint is violated. -/
def write (choice : Choice) (db : Users) (after : Option Users) : Option Unit × Users :=
  match choice.outcome, after with
  | .commits, some db' => (some (), db')
  | .lost, some db' => (none, db')
  | _, _ => (none, db)

/-- What libpq sends of a text parameter: the text up to its first NUL. -/
def c_str (s : String) : String := .ofList (s.toList.takeWhile (· ≠ '\x00'))

def Users.insert_user (db : Users) (row : Account) : Option Users :=
  if ∀ old ∈ db.rows, old.Apart row then some { db with rows := db.rows ++ [row] } else none

def Users.insert_refresh_token (db : Users) (token : String) (uid : UserId) : Option Users :=
  if (∀ old ∈ db.tokens, old.1 ≠ token) ∧ ∃ row ∈ db.rows, row.id = uid then
    some { db with tokens := db.tokens ++ [(token, uid)] }
  else none

def Users.find (db : Users) (username : String) : Option Account :=
  db.rows.find? (·.username = c_str username)

/-- What a statement that reads gives. -/
def read {α : Type} (choice : Choice) (db : Users) (a : α) : Option α × Users :=
  (if choice.outcome = .commits then some a else none, db)

/-- A call of request `i`. PBKDF2 does not fail in `verify`. The hashes and the tokens are
hexadecimal, so they have no NUL. -/
def exec (i : Nat) (choice : Choice) :
    (call : AuthCall) → Users → Option (call.Answer × Users)
  | .select_user username email, db =>
    some (read choice db
      (decide (∃ row ∈ db.rows, row.username = c_str username ∨ row.email = c_str email)))
  | .hash plaintext, db =>
    some (read choice db (password_service.hash pbkdf2 (bytes plaintext) choice.salt))
  | .insert_user uid username email pw_hash, db =>
    some (write choice db (db.insert_user ⟨uid, c_str username, c_str email, pw_hash, i⟩))
  | .select_credentials username, db =>
    some (read choice db ((db.find username).map fun row => (row.id, row.password_hash)))
  | .verify plaintext stored_hash, db =>
    some ((password_service.verify pbkdf2 (bytes plaintext) stored_hash).getD false, db)
  | .insert_refresh_token token uid, db =>
    some (write choice db (db.insert_refresh_token token uid))
  | .delete_refresh_token _ _, _ | .select_refresh_token _, _ | .rotate_refresh_token _ _ _, _ =>
    none

end Calls

/-! ## The requests -/

inductive AccountRequest
  | register (req : Request) (gen : Generated)
  | login (req : Request) (gen : Generated)

variable (services : Services) (pbkdf2 : Pbkdf2)

def serve : AccountRequest → AuthCoroutine
  | .register req gen => register services gen req []
  | .login req gen => login services gen req []

def server : System Users AccountRequest Choice Empty AuthCall AuthCall.Answer Response where
  start := ⟨[], []⟩
  spawn := serve services
  exec := fun i _ choice => exec pbkdf2 i choice
  env := fun e => nomatch e

abbrev State := Pool Users AccountRequest AuthCall AuthCall.Answer Response

/-! ## The laws -/

/-- The members of the body of a registration. -/
structure Registration where
  username : String
  email : String
  password : String

def registration (req : Request) : Option Registration := do
  let body ← services.parse req.body
  let username ← body.value_string "username"
  let email ← body.value_string "email"
  let password ← body.value_string "password"
  return { username := username, email := email, password := password }

/-- The name and the password of a login. -/
def credentials (req : Request) : Option (String × String) := do
  let body ← services.parse req.body
  let username ← body.value_string "username"
  let password ← body.value_string "password"
  return (username, password)

/-- The key of a password. -/
def key (salt : Octets SALT_LEN) (password : String) : Octets password_service.KEY_LEN :=
  pbkdf2 (bytes password) (to_int (bytes password).length) salt ITERATIONS

/-- What a registration must have. -/
def Registration.Accepted (r : Registration) : Prop :=
  r.username ≠ "" ∧ r.email ≠ "" ∧ 6 ≤ r.password.utf8ByteSize

/-- The account is as the request wants it, with its password and a salt. Its name and its
address end at the first NUL of those of the request. -/
structure Made (n : AccountRequest) (row : Account) (password : String)
    (salt : Octets SALT_LEN) : Prop where
  request : ∃ req gen r, n = .register req gen ∧ registration services req = some r ∧ r.Accepted ∧
    row.id = gen.snowflake ∧ row.username = c_str r.username ∧ row.email = c_str r.email ∧
    password = r.password
  hash : row.password_hash = password_service.hash pbkdf2 (bytes password) salt

/-- The accounts are those of the registrations that succeeded, and of some whose reply says
that the database failed. -/
structure WellRegistered (s : State) : Prop where
  apart : s.shared.rows.Pairwise Account.Apart
  once : (s.shared.rows.map (·.request)).Nodup
  made : ∀ row ∈ s.shared.rows, ∃ n x, s.tasks[row.request]? = some (n, x) ∧
    ∃ password salt, Made services pbkdf2 n row password salt
  replied : ∀ i n res, s.tasks[i]? = some (n, .ret res) →
    (res.status = .created → ∃ row ∈ s.shared.rows, row.request = i) ∧
    (∀ row ∈ s.shared.rows, row.request = i →
      res.status = .created ∨ res.status = .internal_server_error)

/-! ## Where a request stands -/

section Parts

variable (gen : Generated)

def register_select (username email password : String) : AuthCoroutine :=
  .await (.select_user username email) fun
    | none => database_error
    | some true => reply (make_error .conflict "username or email already taken")
    | some false => register_hash gen username email password

def login_verify (uid : UserId) (password pw_hash : String) : AuthCoroutine :=
  .await (.verify password pw_hash) fun ok =>
    if ok then login_insert services gen uid
    else reply (make_error .unauthorized "invalid credentials")

def login_select (username password : String) : AuthCoroutine :=
  .await (.select_credentials username) fun
    | none => database_error
    | some none => reply (make_error .unauthorized "invalid credentials")
    | some (some (uid, pw_hash)) => login_verify services gen uid password pw_hash

/-- A registration is refused, throws, or asks for its names. -/
inductive Registers (req : Request) : AuthCoroutine → Prop
  | refused {res : Response} (hstatus : res.status = .bad_request) : Registers req (.ret res)
  | raised : Registers req .throw
  | select {r : Registration} (hreq : registration services req = some r) (hr : r.Accepted) :
    Registers req (register_select gen r.username r.email r.password)

inductive LogsIn (req : Request) : AuthCoroutine → Prop
  | refused {res : Response} (hstatus : res.status = .bad_request)
    (hempty : ∀ username password, credentials services req = some (username, password) →
      username = "" ∨ password = "") : LogsIn req (.ret res)
  | raised (hnone : credentials services req = none) : LogsIn req .throw
  | select {username password : String}
    (hreq : credentials services req = some (username, password)) (hname : username ≠ "")
    (hne : password ≠ "") : LogsIn req (login_select services gen username password)

theorem registers (req : Request) :
    Registers services gen req (register services gen req []) := by
  unfold register with_body
  cases hbody : services.parse req.body with
  | none => exact .refused rfl
  | some body =>
    unfold with_value
    dsimp only
    cases husername : body.value_string "username" with
    | none => exact .raised
    | some username =>
      cases hemail : body.value_string "email" with
      | none => exact .raised
      | some email =>
        cases hpassword : body.value_string "password" with
        | none => exact .raised
        | some password =>
          simp only [Coroutine.of, register_check]
          split_ifs with hempty hshort
          · exact .refused rfl
          · exact .refused rfl
          · apply Registers.select (r := ⟨username, email, password⟩)
            · simp [registration, hbody, husername, hemail, hpassword]
            · rw [not_or, not_or] at hempty
              exact ⟨hempty.1, hempty.2.1, Nat.not_lt.mp hshort⟩

theorem logs_in (req : Request) : LogsIn services gen req (login services gen req []) := by
  unfold login with_body
  cases hbody : services.parse req.body with
  | none => exact .refused rfl (by simp [credentials, hbody])
  | some body =>
    unfold with_value
    dsimp only
    cases husername : body.value_string "username" with
    | none => exact .raised (by simp [credentials, hbody, husername])
    | some username =>
      cases hpassword : body.value_string "password" with
      | none => exact .raised (by simp [credentials, hbody, husername, hpassword])
      | some password =>
        have hreq : credentials services req = some (username, password) := by
          simp [credentials, hbody, husername, hpassword]
        simp only [Coroutine.of]
        split_ifs with hempty
        · refine .refused rfl fun u q hu => ?_
          rw [hreq] at hu
          cases hu
          exact hempty
        · rw [not_or] at hempty
          exact .select hreq hempty.1 hempty.2

end Parts

/-- The request has inserted an account. -/
def Present (db : Users) (i : Nat) : Prop := ∃ row ∈ db.rows, row.request = i

/-- What is known of a request at each of its calls, and at its end. -/
inductive Stage (db : Users) (i : Nat) : AccountRequest → AuthCoroutine → Prop
  | select {req : Request} {gen : Generated} {r : Registration}
    (hreq : registration services req = some r) (hr : r.Accepted) (hnone : ¬ Present db i) :
    Stage db i (.register req gen) (register_select gen r.username r.email r.password)
  | hash {req : Request} {gen : Generated} {r : Registration}
    (hreq : registration services req = some r) (hr : r.Accepted) (hnone : ¬ Present db i) :
    Stage db i (.register req gen) (register_hash gen r.username r.email r.password)
  | insert {req : Request} {gen : Generated} {r : Registration} {salt : Octets SALT_LEN}
    (hreq : registration services req = some r) (hr : r.Accepted) (hnone : ¬ Present db i) :
    Stage db i (.register req gen) (register_store gen r.username r.email
      (password_service.hash pbkdf2 (bytes r.password) salt))
  | created {n : AccountRequest} {res : Response} (hrow : Present db i)
    (hstatus : res.status = .created) : Stage db i n (.ret res)
  | failed {n : AccountRequest} {res : Response} (hstatus : res.status = .internal_server_error) :
    Stage db i n (.ret res)
  | refused {n : AccountRequest} {res : Response} (hnone : ¬ Present db i)
    (hstatus : res.status ≠ .created) : Stage db i n (.ret res)
  | raised {n : AccountRequest} (hnone : ¬ Present db i) : Stage db i n .throw
  | login_select {req : Request} {gen : Generated} {username password : String}
    (hnone : ¬ Present db i) :
    Stage db i (.login req gen) (login_select services gen username password)
  | login_verify {req : Request} {gen : Generated} {uid : UserId} {password pw_hash : String}
    (hnone : ¬ Present db i) :
    Stage db i (.login req gen) (login_verify services gen uid password pw_hash)
  | login_insert {req : Request} {gen : Generated} {uid : UserId} (hnone : ¬ Present db i) :
    Stage db i (.login req gen) (login_insert services gen uid)

/-- A request that has inserted an account is the registration of that account. -/
def MadeBy (n : AccountRequest) (row : Account) : Prop :=
  ∃ password salt, Made services pbkdf2 n row password salt

/-- What is known of request `i`. -/
structure Knows (db : Users) (i : Nat) (n : AccountRequest) (x : AuthCoroutine) : Prop where
  stage : Stage services pbkdf2 db i n x
  made : ∀ row ∈ db.rows, row.request = i → MadeBy services pbkdf2 n row

/-- The rows are apart, and no request has inserted two. -/
structure Sound (db : Users) : Prop where
  apart : db.rows.Pairwise Account.Apart
  once : (db.rows.map (·.request)).Nodup

/-- A step of request `i` leaves the rows, or adds one. -/
def Adds (i : Nat) (db db' : Users) : Prop :=
  db'.rows = db.rows ∨ ∃ row, row.request = i ∧ db'.rows = db.rows ++ [row]

/-- A step of a request: the rows stay apart, and what is known of it goes on. -/
structure Goes (db db' : Users) (i : Nat) (n : AccountRequest) (x : AuthCoroutine) : Prop where
  sound : Sound db'
  adds : Adds i db db'
  knows : Knows services pbkdf2 db' i n x

section Steps

variable {services pbkdf2} {db db' : Users} {i j : Nat} {n : AccountRequest} {x : AuthCoroutine}
  {choice : Choice}

theorem present_of_adds (h : Adds i db db') (hne : j ≠ i) : Present db' j ↔ Present db j := by
  unfold Present
  rcases h with h | ⟨row, hrow, h⟩
  · rw [h]
  · rw [h]
    simp only [List.mem_append, List.mem_singleton]
    constructor
    · rintro ⟨row', hrow' | rfl, hj⟩
      · exact ⟨row', hrow', hj⟩
      · exact absurd (hj.symm.trans hrow) hne
    · rintro ⟨row', hrow', hj⟩
      exact ⟨row', .inl hrow', hj⟩

/-- What is known of the other requests stays true. -/
theorem Knows.mono (h : Knows services pbkdf2 db j n x) (ha : Adds i db db') (hne : j ≠ i) :
    Knows services pbkdf2 db' j n x where
  stage := by
    have hiff := present_of_adds ha hne
    cases h.stage with
    | select hreq hr hnone => exact .select hreq hr (mt hiff.mp hnone)
    | hash hreq hr hnone => exact .hash hreq hr (mt hiff.mp hnone)
    | insert hreq hr hnone => exact .insert hreq hr (mt hiff.mp hnone)
    | created hrow hstatus => exact .created (hiff.mpr hrow) hstatus
    | failed hstatus => exact .failed hstatus
    | refused hnone hstatus => exact .refused (mt hiff.mp hnone) hstatus
    | raised hnone => exact .raised (mt hiff.mp hnone)
    | login_select hnone => exact .login_select (mt hiff.mp hnone)
    | login_verify hnone => exact .login_verify (mt hiff.mp hnone)
    | login_insert hnone => exact .login_insert (mt hiff.mp hnone)
  made := by
    intro row hrow hj
    rcases ha with ha | ⟨new, hnew, ha⟩
    · exact h.made row (ha ▸ hrow) hj
    · rw [ha, List.mem_append, List.mem_singleton] at hrow
      rcases hrow with hrow | rfl
      · exact h.made row hrow hj
      · exact absurd (hj.symm.trans hnew) hne

/-- A request begins with the checks of its body. -/
theorem stage_serve (n : AccountRequest) (hnone : ¬ Present db i) :
    Stage services pbkdf2 db i n (serve services n) := by
  cases n with
  | register req gen =>
    have hx := registers services gen req
    change Stage services pbkdf2 db i _ (register services gen req [])
    generalize register services gen req [] = x at hx ⊢
    cases hx with
    | refused hstatus => exact .refused hnone (by rw [hstatus]; decide)
    | raised => exact .raised hnone
    | select hreq hr => exact .select hreq hr hnone
  | login req gen =>
    have hx := logs_in services gen req
    change Stage services pbkdf2 db i _ (login services gen req [])
    generalize login services gen req [] = x at hx ⊢
    cases hx with
    | refused hstatus => exact .refused hnone (by rw [hstatus]; decide)
    | raised => exact .raised hnone
    | select hreq => exact .login_select hnone

/-- A row that is inserted is apart from the others. -/
theorem Sound.insert (h : Sound db) {row : Account} (hnone : ¬ Present db row.request)
    (hinsert : db.insert_user row = some db') :
    Sound db' ∧ db'.rows = db.rows ++ [row] := by
  unfold Users.insert_user at hinsert
  split_ifs at hinsert with hapart
  obtain rfl := Option.some.inj hinsert
  refine ⟨⟨?_, ?_⟩, rfl⟩
  · refine List.pairwise_append.mpr ⟨h.apart, List.pairwise_singleton _ _, ?_⟩
    intro old hold new hnew
    obtain rfl := List.mem_singleton.mp hnew
    exact hapart old hold
  · dsimp only
    rw [List.map_append, List.nodup_append]
    refine ⟨h.once, List.nodup_singleton _, ?_⟩
    rintro a ha b hb rfl
    obtain ⟨old, hold, hreq⟩ := List.mem_map.mp ha
    exact hnone ⟨old, hold, hreq.trans (List.mem_singleton.mp hb)⟩

theorem insert_refresh_token_rows {token : String} {uid : UserId}
    (h : db.insert_refresh_token token uid = some db') : db'.rows = db.rows := by
  unfold Users.insert_refresh_token at h
  split_ifs at h
  obtain rfl := Option.some.inj h
  rfl

/-- A write commits and is answered, commits and throws, or throws. -/
theorem write_cases {after : Option Users} {answer : Option Unit}
    (h : some (write choice db after) = some (answer, db')) :
    (answer = some () ∧ after = some db') ∨ (answer = none ∧ (after = some db' ∨ db' = db)) := by
  unfold write at h
  obtain ⟨rfl, rfl⟩ := Prod.mk.inj (Option.some.inj h)
  cases choice.outcome <;> cases after <;> simp

theorem read_cases {α : Type} {a : α} {answer : Option α}
    (h : some (read choice db a) = some (answer, db')) :
    db' = db ∧ (answer = none ∨ answer = some a) := by
  unfold read at h
  obtain ⟨rfl, rfl⟩ := Prod.mk.inj (Option.some.inj h)
  split_ifs <;> simp

/-- A step that leaves the rows alone. -/
theorem goes_same (h : Sound db) (hrows : db'.rows = db.rows)
    (hmade : ∀ row ∈ db.rows, row.request = i → MadeBy services pbkdf2 n row)
    (hstage : Stage services pbkdf2 db' i n x) : Goes services pbkdf2 db db' i n x where
  sound := ⟨hrows ▸ h.apart, hrows ▸ h.once⟩
  adds := .inl hrows
  knows := ⟨hstage, hrows ▸ hmade⟩

theorem not_present_of_rows (hrows : db'.rows = db.rows) (h : ¬ Present db i) :
    ¬ Present db' i := by
  unfold Present at h ⊢
  rwa [hrows]

theorem tokens_status (access_token refresh_token : String) :
    (tokens access_token refresh_token).status = .ok := rfl

/-- The insertion of the account. -/
theorem goes_insert {req : Request} {gen : Generated} {r : Registration} {salt : Octets SALT_LEN}
    {answer : Option Unit} (h : Sound db) (hreq : registration services req = some r)
    (hr : r.Accepted) (hnone : ¬ Present db i)
    (hexec : exec pbkdf2 i choice (.insert_user gen.snowflake r.username r.email
      (password_service.hash pbkdf2 (bytes r.password) salt)) db = some (answer, db'))
    {resume : Option Unit → AuthCoroutine}
    (hx : register_store gen r.username r.email
      (password_service.hash pbkdf2 (bytes r.password) salt) =
        .await (.insert_user gen.snowflake r.username r.email
          (password_service.hash pbkdf2 (bytes r.password) salt)) resume) :
    Goes services pbkdf2 db db' i (.register req gen) (resume answer) := by
  obtain rfl := eq_of_heq (Coroutine.await.inj hx).2
  have hmade : ∀ old ∈ db.rows, old.request = i →
      MadeBy services pbkdf2 (.register req gen) old :=
    fun old hold hi => absurd ⟨old, hold, hi⟩ hnone
  have hinserted : ∀ {x}, db.insert_user ⟨gen.snowflake, c_str r.username, c_str r.email,
      password_service.hash pbkdf2 (bytes r.password) salt, i⟩ = some db' →
      (Present db' i → Stage services pbkdf2 db' i (.register req gen) x) →
      Goes services pbkdf2 db db' i (.register req gen) x := by
    intro x hinsert hstage
    obtain ⟨hsound, hrows⟩ := h.insert hnone hinsert
    have hlast : (⟨gen.snowflake, c_str r.username, c_str r.email,
        password_service.hash pbkdf2 (bytes r.password) salt, i⟩ : Account) ∈ db'.rows := by
      rw [hrows]
      exact List.mem_append_right _ List.mem_cons_self
    refine ⟨hsound, .inr ⟨_, rfl, hrows⟩, hstage ⟨_, hlast, rfl⟩, ?_⟩
    intro row hrow hi
    rw [hrows, List.mem_append, List.mem_singleton] at hrow
    rcases hrow with hrow | rfl
    · exact hmade row hrow hi
    · exact ⟨r.password, salt, ⟨req, gen, r, rfl, hreq, hr, rfl, rfl, rfl, rfl⟩, rfl⟩
  rcases write_cases hexec with ⟨rfl, hinsert⟩ | ⟨rfl, hinsert | rfl⟩
  · exact hinserted hinsert fun hrow => .created hrow rfl
  · exact hinserted hinsert fun _ => .failed rfl
  · exact goes_same h rfl hmade (.failed rfl)

theorem goes_step {call : AuthCall} {resume : call.Answer → AuthCoroutine} {answer : call.Answer}
    (h : Sound db) (hk : Knows services pbkdf2 db i n (.await call resume))
    (hexec : exec pbkdf2 i choice call db = some (answer, db')) :
    Goes services pbkdf2 db db' i n (resume answer) := by
  obtain ⟨hstage, hmade⟩ := hk
  generalize hx : Coroutine.await call resume = x at hstage
  cases hstage with
  | @select req gen r hreq hr hnone =>
    cases hx
    obtain ⟨rfl, rfl | rfl⟩ := read_cases hexec
    · exact goes_same h rfl hmade (.failed rfl)
    · refine goes_same h rfl hmade ?_
      cases decide (∃ row ∈ db'.rows, row.username = c_str r.username ∨ row.email = c_str r.email)
      · exact .hash hreq hr hnone
      · exact .refused hnone (by decide)
  | hash hreq hr hnone =>
    cases hx
    obtain ⟨rfl, rfl | rfl⟩ := read_cases hexec
    · exact goes_same h rfl hmade (.raised hnone)
    · exact goes_same h rfl hmade (.insert hreq hr hnone)
  | insert hreq hr hnone =>
    cases hx
    exact goes_insert h hreq hr hnone hexec rfl
  | login_select hnone =>
    cases hx
    obtain ⟨rfl, rfl | rfl⟩ := read_cases hexec
    · exact goes_same h rfl hmade (.failed rfl)
    · refine goes_same h rfl hmade ?_
      cases db'.find _ with
      | none => exact .refused hnone (by decide)
      | some row => exact .login_verify hnone
  | login_verify hnone =>
    cases hx
    obtain ⟨rfl, rfl⟩ := Prod.mk.inj (Option.some.inj hexec)
    refine goes_same h rfl hmade ?_
    dsimp only
    split_ifs
    · exact .login_insert hnone
    · exact .refused hnone (by decide)
  | login_insert hnone =>
    cases hx
    rcases write_cases hexec with ⟨rfl, hinsert⟩ | ⟨rfl, hinsert | rfl⟩
    · have hrows := insert_refresh_token_rows hinsert
      refine goes_same h hrows hmade (.refused (not_present_of_rows hrows hnone) ?_)
      rw [tokens_status]
      decide
    · exact goes_same h (insert_refresh_token_rows hinsert) hmade (.failed rfl)
    · exact goes_same h rfl hmade (.failed rfl)
  | created hrow hstatus => cases hx
  | failed hstatus => cases hx
  | refused hnone hstatus => cases hx
  | raised hnone => cases hx

end Steps

/-! ## The accounts of a run -/

structure Inv (s : State) : Prop where
  holds : Holds Sound (Knows services pbkdf2) s
  known : ∀ row ∈ s.shared.rows, row.request < s.tasks.length

section Runs

variable {services pbkdf2} {s s' : State}

theorem inv_start : Inv services pbkdf2 (server services pbkdf2).machine.start where
  holds := holds_start _ ⟨List.Pairwise.nil, List.nodup_nil⟩
  known := fun _ h => absurd h List.not_mem_nil

theorem inv_step {a : Label AccountRequest Choice Empty} (h : Inv services pbkdf2 s)
    (hs : (server services pbkdf2).step s a = some s') : Inv services pbkdf2 s' := by
  cases turn_of_step hs with
  | spawn n =>
    have hnone : ¬ Present s.shared s.tasks.length := by
      rintro ⟨row, hrow, hlen⟩
      exact absurd (h.known row hrow) (by omega)
    refine ⟨h.holds.spawn ⟨stage_serve n hnone, ?_⟩, ?_⟩
    · intro row hrow hlen
      exact absurd ⟨row, hrow, hlen⟩ hnone
    · intro row hrow
      have hlt := h.known row hrow
      simp only [List.length_append, List.length_singleton]
      omega
  | @resume i choice n call resume answer shared htask hexec =>
    have hgoes := goes_step h.holds.shared (h.holds.task _ _ _ htask) hexec
    refine ⟨h.holds.resume hgoes.sound hgoes.knows fun j m y hne _ hk =>
      hk.mono hgoes.adds hne, ?_⟩
    have hi : i < s.tasks.length := (List.getElem?_eq_some_iff.mp htask).1
    intro row hrow
    dsimp only at hrow ⊢
    rw [List.length_set]
    rcases hgoes.adds with hrows | ⟨new, hnew, hrows⟩
    · exact h.known row (hrows ▸ hrow)
    · rw [hrows, List.mem_append, List.mem_singleton] at hrow
      rcases hrow with hrow | rfl
      · exact h.known row hrow
      · omega
  | @env e _ henv => cases e

theorem inv_run {as : List (Label AccountRequest Choice Empty)}
    (hr : (server services pbkdf2).machine.run as = some s) : Inv services pbkdf2 s :=
  Machine.invariant inv_start (fun _ _ _ => inv_step) hr

theorem Inv.well_registered (h : Inv services pbkdf2 s) :
    WellRegistered services pbkdf2 s where
  apart := h.holds.shared.apart
  once := h.holds.shared.once
  made := by
    intro row hrow
    obtain ⟨⟨n, x⟩, htask⟩ : ∃ task, s.tasks[row.request]? = some task :=
      ⟨_, List.getElem?_eq_getElem (h.known row hrow)⟩
    exact ⟨n, x, htask, (h.holds.task _ _ _ htask).made row hrow rfl⟩
  replied := by
    intro i n res htask
    have hstage := (h.holds.task _ _ _ htask).stage
    generalize hx : Coroutine.ret res = x at hstage
    cases hstage with
    | created hrow hstatus =>
      cases hx
      exact ⟨fun _ => hrow, fun _ _ _ => .inl hstatus⟩
    | failed hstatus =>
      cases hx
      rw [hstatus]
      exact ⟨fun h => (by cases h), fun _ _ _ => .inr rfl⟩
    | refused hnone hstatus =>
      cases hx
      exact ⟨fun h => absurd h hstatus, fun row hrow hi => absurd ⟨row, hrow, hi⟩ hnone⟩
    | select hreq hr hnone => cases hx
    | hash hreq hr hnone => cases hx
    | insert hreq hr hnone => cases hx
    | raised hnone => cases hx
    | login_select hnone => cases hx
    | login_verify hnone => cases hx
    | login_insert hnone => cases hx

end Runs

/-- In every run the accounts have different ids, names and addresses, and are those of the
registrations that were answered with 201, and of some that were answered with 500. -/
theorem each_account_was_registered_once {as : List (Label AccountRequest Choice Empty)} {s : State}
    (hr : (server services pbkdf2).machine.run as = some s) :
    WellRegistered services pbkdf2 s :=
  (inv_run hr).well_registered

/-! ## The logins to an account -/

/-- Neither the name nor the password is empty, and the password gives the key of the account. -/
def Opens (row : Account) (username password : String) : Prop :=
  username ≠ "" ∧ password ≠ "" ∧
    password_service.verify pbkdf2 (bytes password) row.password_hash = some true

/-- A login to an account, with a name and a password. -/
inductive Opening (row : Account) (gen : Generated) (username password : String) :
    AuthCoroutine → Prop
  | select (hname : username ≠ "") (hne : password ≠ "") :
    Opening row gen username password (login_select services gen username password)
  | verify (hname : username ≠ "") (hne : password ≠ "") :
    Opening row gen username password
      (login_verify services gen row.id password row.password_hash)
  | insert (hopens : Opens pbkdf2 row username password) :
    Opening row gen username password (login_insert services gen row.id)
  | opened (hopens : Opens pbkdf2 row username password) :
    Opening row gen username password (.ret (tokens (services.issue row.id) gen.refresh_token))
  | denied {res : Response} (hopens : ¬ Opens pbkdf2 row username password)
    (hstatus : res.status ≠ .ok) : Opening row gen username password (.ret res)
  | failed {res : Response} (hstatus : res.status = .internal_server_error) :
    Opening row gen username password (.ret res)

/-- What is known of a request that came when the account was there. -/
def Tries (row : Account) (n : AccountRequest) (x : AuthCoroutine) : Prop :=
  ∀ req gen username password, n = .login req gen →
    credentials services req = some (username, password) → c_str username = row.username →
    Opening services pbkdf2 row gen username password x

section Logins

variable {services pbkdf2} {db db' : Users} {row : Account} {i : Nat} {n : AccountRequest}
  {choice : Choice}

/-- The account is the one that its name finds. -/
theorem Sound.find_eq (h : Sound db) (hrow : row ∈ db.rows) {username : String}
    (hname : c_str username = row.username) : db.find username = some row := by
  unfold Users.find
  rw [hname]
  cases hfind : db.rows.find? (·.username = row.username) with
  | none => exact absurd (List.find?_eq_none.mp hfind row hrow) (by simp)
  | some found =>
    have hfound := List.find?_some hfind
    have hname : found.username = row.username := by simpa using hfound
    by_cases hne : found = row
    · rw [hne]
    · exact absurd hname (h.apart.forall (List.mem_of_find?_eq_some hfind) hrow hne).2.1

theorem tries_serve (n : AccountRequest) : Tries services pbkdf2 row n (serve services n) := by
  rintro req gen username password rfl hreq _
  have hx := logs_in services gen req
  change Opening _ _ _ _ _ _ (login services gen req [])
  generalize login services gen req [] = x at hx ⊢
  cases hx with
  | refused hstatus hempty =>
    refine .denied ?_ (by rw [hstatus]; decide)
    rintro ⟨hname, hne, _⟩
    exact (hempty _ _ hreq).elim hname hne
  | raised hnone =>
    rw [hnone] at hreq
    cases hreq
  | select hcred hname hne =>
    obtain ⟨rfl, rfl⟩ := Prod.mk.inj (Option.some.inj (hcred.symm.trans hreq))
    exact .select hname hne

theorem opening_step {gen : Generated} {username password : String} {call : AuthCall}
    {resume : call.Answer → AuthCoroutine} {answer : call.Answer} (h : Sound db)
    (hrow : row ∈ db.rows) (hcut : c_str username = row.username)
    (hopening : Opening services pbkdf2 row gen username password (.await call resume))
    (hexec : exec pbkdf2 i choice call db = some (answer, db')) :
    Opening services pbkdf2 row gen username password (resume answer) := by
  generalize hx : Coroutine.await call resume = x at hopening
  cases hopening with
  | select hname hne =>
    cases hx
    obtain ⟨rfl, rfl | rfl⟩ := read_cases hexec
    · exact .failed rfl
    · rw [h.find_eq hrow hcut]
      exact .verify hname hne
  | verify hname hne =>
    cases hx
    obtain ⟨rfl, rfl⟩ := Prod.mk.inj (Option.some.inj hexec)
    dsimp only
    cases hverify : password_service.verify pbkdf2 (bytes password) row.password_hash with
    | none =>
      exact .denied (fun h => by rw [Opens, hverify] at h; cases h.2.2) (by decide)
    | some ok =>
      cases ok with
      | false => exact .denied (fun h => by rw [Opens, hverify] at h; cases h.2.2) (by decide)
      | true => exact .insert ⟨hname, hne, hverify⟩
  | insert hopens =>
    cases hx
    rcases write_cases hexec with ⟨rfl, _⟩ | ⟨rfl, _⟩
    · exact .opened hopens
    · exact .failed rfl
  | opened hopens => cases hx
  | denied hopens hstatus => cases hx
  | failed hstatus => cases hx

end Logins

/-- The accounts of the run, and the logins that came after `row` was inserted. -/
structure Serves (row : Account) (old : Nat) (s : State) : Prop where
  inv : Inv services pbkdf2 s
  there : row ∈ s.shared.rows
  length : old ≤ s.tasks.length
  tries : ∀ i n x, old ≤ i → s.tasks[i]? = some (n, x) → Tries services pbkdf2 row n x

section Sessions

variable {services pbkdf2} {s s' : State} {row : Account} {old : Nat}

theorem Inv.serves (h : Inv services pbkdf2 s) (hrow : row ∈ s.shared.rows) :
    Serves services pbkdf2 row s.tasks.length s where
  inv := h
  there := hrow
  length := Nat.le_refl _
  tries := by
    intro i n x hi htask
    exact absurd (List.getElem?_eq_some_iff.mp htask).1 (by omega)

theorem serves_step {a : Label AccountRequest Choice Empty} (h : Serves services pbkdf2 row old s)
    (hs : (server services pbkdf2).step s a = some s') : Serves services pbkdf2 row old s' := by
  have hinv := inv_step h.inv hs
  cases turn_of_step hs with
  | spawn n =>
    refine ⟨hinv, h.there, ?_, ?_⟩
    · have hold := h.length
      simp only [List.length_append, List.length_singleton]
      omega
    · intro i m x hi htask
      dsimp only at htask
      rw [List.getElem?_append] at htask
      split at htask
      · exact h.tries i m x hi htask
      · obtain ⟨rfl, rfl⟩ := Prod.mk.inj (List.mem_singleton.mp (List.mem_of_getElem? htask))
        exact tries_serve m
  | @resume i choice n call resume answer shared htask hexec =>
    have hgoes := goes_step h.inv.holds.shared (h.inv.holds.task _ _ _ htask) hexec
    refine ⟨hinv, ?_, ?_, ?_⟩
    · rcases hgoes.adds with hrows | ⟨new, _, hrows⟩
      · exact hrows ▸ h.there
      · rw [hrows]
        exact List.mem_append_left _ h.there
    · rw [List.length_set]
      exact h.length
    · intro j m y hj hy
      dsimp only at hy
      rw [List.getElem?_set] at hy
      split at hy
      · rename_i hij
        subst hij
        split at hy
        · obtain ⟨rfl, rfl⟩ := Prod.mk.inj (Option.some.inj hy)
          intro req gen username password hn hreq hcut
          exact opening_step h.inv.holds.shared h.there hcut
            (h.tries i n _ hj htask req gen username password hn hreq hcut) hexec
        · cases hy
      · exact h.tries j m y hj hy
  | @env e _ henv => cases e

end Sessions

/-- Once an account is there, a login to it that the database does not fail is answered with
tokens of its user if and only if its name is not empty and the password gives the key of the
one that was registered. -/
theorem a_login_succeeds_iff_its_password_was_registered
    {as bs : List (Label AccountRequest Choice Empty)} {s s' : State} {row : Account} {i : Nat}
    {req : Request} {gen : Generated} {res : Response} {username password : String}
    (hr : (server services pbkdf2).machine.run as = some s) (hrow : row ∈ s.shared.rows)
    (hlater : (server services pbkdf2).machine.runFrom s bs = some s') (hnew : s.tasks.length ≤ i)
    (htask : s'.tasks[i]? = some (.login req gen, .ret res))
    (hreq : credentials services req = some (username, password))
    (hname : c_str username = row.username) (hserved : res.status ≠ .internal_server_error) :
    ∃ n x registered salt, s.tasks[row.request]? = some (n, x) ∧
      Made services pbkdf2 n row registered salt ∧
      (res.status = .ok ↔ username ≠ "" ∧ password ≠ "" ∧
        key pbkdf2 salt password = key pbkdf2 salt registered) ∧
      (res.status = .ok → res = tokens (services.issue row.id) gen.refresh_token) := by
  have hinv := inv_run hr
  obtain ⟨n, x, hregistered, registered, salt, hmade⟩ := hinv.well_registered.made row hrow
  have hserves : Serves services pbkdf2 row s.tasks.length s' :=
    Machine.runFrom_invariant (fun _ _ _ => serves_step) (hinv.serves hrow) hlater
  have hopens : Opens pbkdf2 row username password ↔ username ≠ "" ∧ password ≠ "" ∧
      key pbkdf2 salt password = key pbkdf2 salt registered := by
    unfold Opens key
    rw [hmade.hash, password_service.verify_hash, Option.some.injEq, decide_eq_true_iff]
  refine ⟨n, x, registered, salt, hregistered, hmade, ?_⟩
  rw [← hopens]
  have hopening := hserves.tries i _ _ hnew htask req gen username password rfl hreq hname
  generalize hx : Coroutine.ret res = x at hopening
  cases hopening with
  | opened hok =>
    cases hx
    exact ⟨⟨fun _ => hok, fun _ => rfl⟩, fun _ => rfl⟩
  | denied hno hstatus =>
    cases hx
    exact ⟨⟨fun h => absurd h hstatus, fun h => absurd h hno⟩, fun h => absurd h hstatus⟩
  | failed hstatus =>
    cases hx
    exact absurd hstatus hserved
  | select hname hne => cases hx
  | verify hname hne => cases hx
  | insert hok => cases hx

/-! ## Ann -/

/-- The key is the first octets of the password. -/
def padded : Pbkdf2 := fun password _ _ _ =>
  ⟨(password ++ List.replicate 32 0).take 32, by simp [password_service.KEY_LEN]⟩

def ann : Registration := { username := "ann", email := "ann@home", password := "secret" }

/-- Every body is Ann's. -/
def ann_services : Services where
  verify _ := none
  issue _ := "access"
  parse _ := some (.object [("username", .string ann.username), ("email", .string ann.email),
    ("password", .string ann.password)])

def fair : Choice := { outcome := .commits, salt := List.Vector.replicate SALT_LEN 0 }

def ann_row : Account where
  id := 7
  username := ann.username
  email := ann.email
  password_hash := password_service.hash padded (bytes ann.password) fair.salt
  request := 0

def ann_registers : AccountRequest :=
  .register { method := .post, target := "/auth/register" } { snowflake := 7 }

def ann_login : Request := { method := .post, target := "/auth/login" }

def ann_gen : Generated := { refresh_token := "refresh" }

def registering : List (Label AccountRequest Choice Empty) :=
  [.spawn ann_registers, .resume 0 fair, .resume 0 fair, .resume 0 fair]

def created : Response :=
  make_json .created (.json (.object [("id", .string "7"), ("username", .string "ann")]))

def registered : State := ⟨⟨[ann_row], []⟩, [(ann_registers, .ret created)]⟩

theorem ann_has_registered :
    (server ann_services padded).machine.run registering = some registered := rfl

theorem ann_is_registered_once : WellRegistered ann_services padded registered :=
  each_account_was_registered_once ann_services padded ann_has_registered

/-- The second request, at a call. -/
def logging_in (x : AuthCoroutine) : State :=
  { registered with tasks := registered.tasks ++ [(.login ann_login ann_gen, x)] }

def logged_in : State :=
  ⟨⟨[ann_row], [("refresh", 7)]⟩, registered.tasks ++
    [(.login ann_login ann_gen, .ret (tokens "access" "refresh"))]⟩

theorem ann_has_logged_in : (server ann_services padded).machine.runFrom registered
    [.spawn (.login ann_login ann_gen), .resume 1 fair, .resume 1 fair, .resume 1 fair] =
      some logged_in := by
  have hverify : (password_service.verify padded (bytes ann.password)
      ann_row.password_hash).getD false = true := by
    rw [ann_row, password_service.verify_hash]
    simp
  have hstep : (server ann_services padded).step
      (logging_in (login_verify ann_services ann_gen 7 ann.password ann_row.password_hash))
        (.resume 1 fair) =
      some (logging_in (if (password_service.verify padded (bytes ann.password)
        ann_row.password_hash).getD false then login_insert ann_services ann_gen 7
          else reply (make_error .unauthorized "invalid credentials"))) := rfl
  rw [hverify, if_pos rfl] at hstep
  have hfound : (server ann_services padded).machine.runFrom registered
      [.spawn (.login ann_login ann_gen), .resume 1 fair] = some (logging_in
        (login_verify ann_services ann_gen 7 ann.password ann_row.password_hash)) := rfl
  rw [show ∀ a b c d : Label AccountRequest Choice Empty, [a, b, c, d] = [a, b] ++ [c, d] from
    fun _ _ _ _ => rfl, Machine.runFrom_append, hfound, Option.bind_some, Machine.runFrom,
    show (server ann_services padded).machine.step = (server ann_services padded).step from rfl,
    hstep]
  rfl

theorem ann_gets_her_tokens :
    ∃ n x password salt, registered.tasks[ann_row.request]? = some (n, x) ∧
      Made ann_services padded n ann_row password salt ∧
      ((tokens "access" "refresh").status = .ok ↔ ann.username ≠ "" ∧ ann.password ≠ "" ∧
        key padded salt ann.password = key padded salt password) ∧
      ((tokens "access" "refresh").status = .ok →
        tokens "access" "refresh" = tokens (ann_services.issue ann_row.id) "refresh") := by
  apply a_login_succeeds_iff_its_password_was_registered ann_services padded (i := 1)
    ann_has_registered List.mem_cons_self ann_has_logged_in (Nat.le_refl 1) rfl rfl rfl
  rw [tokens_status]
  decide

end loomic.accounts
