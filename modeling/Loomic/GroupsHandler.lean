-- The requests under /groups (GroupsHandler.cpp), as coroutines over the calls
-- that they wait for: each call of Postgres is one transaction, and each
-- command of Redis comes after it.
import Loomic.AuthHandler
import Loomic.Database

open coroutines loomic.auth_handler loomic.frame loomic.http_server loomic.json
open loomic.database (Role)

namespace loomic.groups_handler

/-! ## The calls -/

structure GroupRow where
  id : ConvId
  name : String
  creator_id : UserId
  created_at : String

structure MemberRow where
  user_id : UserId
  username : String
  role : Role

inductive GroupsCall
  | insert_group (group_id : ConvId) (name : String) (creator_id : UserId)
      (member_ids : List UserId)
  | select_group (group_id : ConvId)
  | select_members (group_id : ConvId)
  | select_role (group_id : ConvId) (caller_id : UserId)
  | update_name (group_id : ConvId) (name : String)
  | insert_member (group_id : ConvId) (new_uid : UserId)
  | delete_member (group_id : ConvId) (target_uid : UserId)
  | sadd_group_member (group_id : ConvId) (user_id : UserId)
  | srem_group_member (group_id : ConvId) (user_id : UserId)

/-- A transaction answers `none` when it throws. The commands of Redis cannot throw. -/
@[reducible] def GroupsCall.Answer : GroupsCall → Type
  | .insert_group _ _ _ _ => Option String
  | .select_group _ => Option (Option GroupRow)
  | .select_members _ => Option (List MemberRow)
  | .select_role _ _ => Option (Option Role)
  | .update_name _ _ => Option Unit
  | .insert_member _ _ => Option Unit
  | .delete_member _ _ => Option Unit
  | .sadd_group_member _ _ => Unit
  | .srem_group_member _ _ => Unit

abbrev GroupsCoroutine := Coroutine GroupsCall GroupsCall.Answer Response

section Ids

variable {Call : Type} {Answer : Call → Type}

def to_string (id : UInt64) : Json := .string (toString id.toNat)

/-- `std::from_chars` on a string that the client gave. -/
def with_number (s error : String) (k : UInt64 → Coroutine Call Answer Response) :
    Coroutine Call Answer Response :=
  match from_chars s with
  | none => .ret (make_error .bad_request error)
  | some id => k id

/-- The id of a path segment. `params.at` throws when the name is not bound. -/
def with_id (params : PathParams) (name error : String)
    (k : UInt64 → Coroutine Call Answer Response) : Coroutine Call Answer Response :=
  .of (params.lookup name) fun s => with_number s error k

end Ids

variable (services : Services) (gen : Generated)

/-! ## POST /groups -/

/-- `item.get<std::string>()`, which throws on another kind. -/
def get_string : Json → Option String
  | .string s => some s
  | _ => none

/-- A string that is no number is left out. -/
def parse_members (items : List Json) : Option (List UserId) :=
  (items.mapM get_string).map fun strings => strings.filterMap from_chars

/-- The items of `member_ids`, if it is an array. -/
def member_items : Json → List Json
  | .object members =>
    match members.lookup "member_ids" with
    | some (.array items) => items
    | _ => []
  | _ => []

/-- The commands after the transaction, and the reply. -/
def create_group_fill (group_id : ConvId) (name : String) (creator_id : UserId)
    (member_ids : List UserId) (created_at : String) : GroupsCoroutine :=
  .each ((creator_id :: member_ids).map (.sadd_group_member group_id))
    (reply (make_json .created (.json (.object [("created_at", .string created_at),
      ("group_id", to_string group_id), ("name", .string name)]))))

def create_group_insert (group_id : ConvId) (name : String) (creator_id : UserId)
    (member_ids : List UserId) : GroupsCoroutine :=
  .await (.insert_group group_id name creator_id member_ids) fun
    | none => database_error
    | some created_at => create_group_fill group_id name creator_id member_ids created_at

def create_group (req : Request) (_ : PathParams) : GroupsCoroutine :=
  with_user services req fun creator_id => with_body services req fun body =>
    with_value body "name" fun name =>
      if name = "" then reply (make_error .bad_request "name required")
      else .of (parse_members (member_items body)) fun member_ids =>
        create_group_insert gen.snowflake name creator_id member_ids

/-! ## GET /groups/{id} -/

def role_text : Role → String
  | .admin => "admin"
  | .member => "member"

def member_json (row : MemberRow) : Json :=
  .object [("role", .string (role_text row.role)), ("user_id", to_string row.user_id),
    ("username", .string row.username)]

def group_json (group : GroupRow) (rows : List MemberRow) : Json :=
  .object [("created_at", .string group.created_at), ("creator_id", to_string group.creator_id),
    ("group_id", to_string group.id), ("members", .array (rows.map member_json)),
    ("name", .string group.name)]

def get_group (req : Request) (params : PathParams) : GroupsCoroutine :=
  with_user services req fun caller_id => with_id params "id" "invalid id" fun group_id =>
    .await (.select_group group_id) fun
      | none => database_error
      | some none => reply (make_error .not_found "group not found")
      | some (some group) => .await (.select_members group_id) fun
        | none => database_error
        | some rows =>
          if rows.any fun row => row.user_id == caller_id then
            reply (make_json .ok (.json (group_json group rows)))
          else reply (make_error .forbidden "not a member")

/-! ## PATCH /groups/{id} -/

/-- The check of the role, which the write does not repeat. -/
def when_admin (group_id : ConvId) (caller_id : UserId) (k : GroupsCoroutine) : GroupsCoroutine :=
  .await (.select_role group_id caller_id) fun
    | none => database_error
    | some (some .admin) => k
    | some _ => reply (make_error .forbidden "admin required")

def rename_group_update (group_id : ConvId) (name : String) : GroupsCoroutine :=
  .await (.update_name group_id name) fun
    | none => database_error
    | some () => reply (make_json .ok (.json (.object
        [("group_id", to_string group_id), ("name", .string name)])))

def rename_group (req : Request) (params : PathParams) : GroupsCoroutine :=
  with_user services req fun caller_id => with_id params "id" "invalid id" fun group_id =>
    with_body services req fun body => with_value body "name" fun name =>
      if name = "" then reply (make_error .bad_request "name required")
      else when_admin group_id caller_id (rename_group_update group_id name)

/-! ## POST /groups/{id}/members -/

def add_member_fill (group_id : ConvId) (new_uid : UserId) : GroupsCoroutine :=
  .await (.sadd_group_member group_id new_uid) fun _ =>
    reply (make_json .created (.json (.object
      [("group_id", to_string group_id), ("user_id", to_string new_uid)])))

def add_member_insert (group_id : ConvId) (new_uid : UserId) : GroupsCoroutine :=
  .await (.insert_member group_id new_uid) fun
    | none => database_error
    | some () => add_member_fill group_id new_uid

def add_member (req : Request) (params : PathParams) : GroupsCoroutine :=
  with_user services req fun caller_id => with_id params "id" "invalid id" fun group_id =>
    with_body services req fun body => with_value body "user_id" fun uid_str =>
      if uid_str = "" then reply (make_error .bad_request "user_id required")
      else with_number uid_str "invalid user_id" fun new_uid =>
        when_admin group_id caller_id (add_member_insert group_id new_uid)

/-! ## DELETE /groups/{id}/members/{uid} -/

def remove_member_clear (group_id : ConvId) (target_uid : UserId) : GroupsCoroutine :=
  .await (.srem_group_member group_id target_uid) fun _ => reply { status := .no_content }

def remove_member_delete (group_id : ConvId) (target_uid : UserId) : GroupsCoroutine :=
  .await (.delete_member group_id target_uid) fun
    | none => database_error
    | some () => remove_member_clear group_id target_uid

/-- An exception of the check is swallowed, and leaves the caller without the right. -/
def remove_member_check (group_id : ConvId) (caller_id target_uid : UserId) : GroupsCoroutine :=
  .await (.select_role group_id caller_id) fun
    | some (some .admin) => remove_member_delete group_id target_uid
    | _ => reply (make_error .forbidden "admin required or removing self")

/-- A user may remove himself, without a check. -/
def remove_member (req : Request) (params : PathParams) : GroupsCoroutine :=
  with_user services req fun caller_id => with_id params "id" "invalid id" fun group_id =>
    with_id params "uid" "invalid uid" fun target_uid =>
      if caller_id = target_uid then remove_member_delete group_id target_uid
      else remove_member_check group_id caller_id target_uid

end loomic.groups_handler
