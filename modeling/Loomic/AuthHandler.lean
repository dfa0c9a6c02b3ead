-- The requests under /auth (AuthHandler.cpp), as coroutines over the calls
-- that they wait for. A call of Postgres answers `none` when it throws.
import Loomic.HttpServer
import Loomic.Uuid

open coroutines loomic.frame loomic.http_server loomic.json loomic.uuid

namespace loomic.auth_handler

/-! ## What the handlers are given -/

/-- What the handlers capture: JwtService, and the parser of nlohmann. -/
structure Services where
  verify : String → Option UserId
  issue : UserId → String
  parse : Bytes → Option Json

/-- What the generators and the clock give while a request is served. A handler uses each at
most once. -/
structure Generated where
  snowflake : UInt64 := 0
  refresh_token : String := ""
  draws : Draws := {}
  now_ms : Int64 := 0

/-- The user of the header `Bearer <token>`. -/
def require_auth (services : Services) (authorization_header : String) : Option UserId :=
  let header := authorization_header.toList
  let bearer := "Bearer ".toList
  if header.length ≤ bearer.length ∨ header.take bearer.length ≠ bearer then none
  else services.verify (String.ofList (header.drop bearer.length))

section Steps

variable {Call : Type} {Answer : Call → Type}

def reply (res : Response) : Coroutine Call Answer Response := .ret res

def database_error : Coroutine Call Answer Response :=
  .ret (make_error .internal_server_error "database error")

/-- The check of the token at the head of a handler. -/
def with_user (services : Services) (req : Request)
    (k : UserId → Coroutine Call Answer Response) : Coroutine Call Answer Response :=
  match require_auth services req.authorization with
  | none => .ret (make_error .forbidden "missing or invalid token")
  | some user => k user

/-- The parse, which is inside a `try` of its own. -/
def with_body (services : Services) (req : Request)
    (k : Json → Coroutine Call Answer Response) : Coroutine Call Answer Response :=
  match services.parse req.body with
  | none => .ret (make_error .bad_request "invalid JSON")
  | some body => k body

/-- `body.value(key, std::string{})`, which is inside no `try`. -/
def with_value (body : Json) (key : String) (k : String → Coroutine Call Answer Response) :
    Coroutine Call Answer Response :=
  .of (body.value_string key) k

end Steps

/-! ## The calls -/

inductive AuthCall
  | select_user (username email : String)
  | hash (plaintext : String)
  | insert_user (uid : UserId) (username email pw_hash : String)
  | select_credentials (username : String)
  | verify (plaintext stored_hash : String)
  | insert_refresh_token (token : String) (uid : UserId)
  | delete_refresh_token (token : String) (uid : UserId)
  | select_refresh_token (token : String)
  | rotate_refresh_token (old_token new_refresh : String) (uid : UserId)

/-- The rows as far as they are read. `PasswordService::hash` can throw, `verify` cannot. -/
@[reducible] def AuthCall.Answer : AuthCall → Type
  | .select_user _ _ => Option Bool
  | .hash _ => Option String
  | .insert_user _ _ _ _ => Option Unit
  | .select_credentials _ => Option (Option (UserId × String))
  | .verify _ _ => Bool
  | .insert_refresh_token _ _ => Option Unit
  | .delete_refresh_token _ _ => Option Unit
  | .select_refresh_token _ => Option (Option UserId)
  | .rotate_refresh_token _ _ _ => Option Unit

abbrev AuthCoroutine := Coroutine AuthCall AuthCall.Answer Response

def tokens (access_token refresh_token : String) : Response :=
  make_json .ok (.json (.object [("access_token", .string access_token),
    ("refresh_token", .string refresh_token), ("token_type", .string "Bearer")]))

variable (services : Services) (gen : Generated)

/-! ## POST /auth/register -/

def register_store (username email pw_hash : String) : AuthCoroutine :=
  .await (.insert_user gen.snowflake username email pw_hash) fun
    | none => database_error
    | some () => reply (make_json .created (.json (.object
        [("id", .string (toString gen.snowflake.toNat)), ("username", .string username)])))

/-- The hash is awaited outside of every `try`. -/
def register_hash (username email password : String) : AuthCoroutine :=
  .await (.hash password) fun pw_hash? => .of pw_hash? (register_store gen username email)

/-- After the members are read. -/
def register_check (username email password : String) : AuthCoroutine :=
  if username = "" ∨ email = "" ∨ password = "" then
    reply (make_error .bad_request "missing required fields")
  else if password.utf8ByteSize < 6 then
    reply (make_error .bad_request "password must be at least 6 characters")
  else .await (.select_user username email) fun
    | none => database_error
    | some true => reply (make_error .conflict "username or email already taken")
    | some false => register_hash gen username email password

def register (req : Request) (_ : PathParams) : AuthCoroutine :=
  with_body services req fun body =>
    with_value body "username" fun username => with_value body "email" fun email =>
    with_value body "password" fun password => register_check gen username email password

/-! ## POST /auth/login -/

def login_insert (uid : UserId) : AuthCoroutine :=
  .await (.insert_refresh_token gen.refresh_token uid) fun
    | none => database_error
    | some () => reply (tokens (services.issue uid) gen.refresh_token)

def login (req : Request) (_ : PathParams) : AuthCoroutine :=
  with_body services req fun body =>
    with_value body "username" fun username => with_value body "password" fun password =>
      if username = "" ∨ password = "" then
        reply (make_error .bad_request "missing required fields")
      else .await (.select_credentials username) fun
        | none => database_error
        | some none => reply (make_error .unauthorized "invalid credentials")
        | some (some (uid, pw_hash)) => .await (.verify password pw_hash) fun ok =>
          if ok then login_insert services gen uid
          else reply (make_error .unauthorized "invalid credentials")

/-! ## POST /auth/logout -/

/-- 204 also when no row is deleted. -/
def logout_delete (refresh_token : String) (uid : UserId) : AuthCoroutine :=
  .await (.delete_refresh_token refresh_token uid) fun
    | none => database_error
    | some () => reply { status := .no_content }

def logout (req : Request) (_ : PathParams) : AuthCoroutine :=
  with_user services req fun uid => with_body services req fun body =>
    with_value body "refresh_token" fun refresh_token =>
      if refresh_token = "" then reply (make_error .bad_request "missing refresh_token")
      else logout_delete refresh_token uid

/-! ## POST /auth/refresh -/

/-- The rotation deletes the old token and inserts the new one. It does not ask whether the old
one was still there. -/
def refresh_rotate (old_token : String) (uid : UserId) : AuthCoroutine :=
  .await (.rotate_refresh_token old_token gen.refresh_token uid) fun
    | none => database_error
    | some () => reply (tokens (services.issue uid) gen.refresh_token)

def refresh_select (old_token : String) : AuthCoroutine :=
  .await (.select_refresh_token old_token) fun
    | none => database_error
    | some none => reply (make_error .unauthorized "invalid or expired token")
    | some (some uid) => refresh_rotate services gen old_token uid

def refresh (req : Request) (_ : PathParams) : AuthCoroutine :=
  with_body services req fun body => with_value body "refresh_token" fun old_token =>
    if old_token = "" then reply (make_error .bad_request "missing refresh_token")
    else refresh_select services gen old_token

end loomic.auth_handler
