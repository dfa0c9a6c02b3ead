-- What a request may do: each call of a handler is permitted by the token of
-- the request and by what the handler has been answered before. A reply of
-- success means that the work is done, and any other reply that nothing has
-- changed.
import Loomic.HttpHandlers
import Loomic.Lib.Permissions

open coroutines loomic.auth_handler loomic.frame loomic.groups_handler loomic.http_handlers
  loomic.http_server loomic.json
open loomic.database (Role)
open loomic.uuid (generate_uuid)

namespace loomic.authorization

/-! ## What has been answered -/

abbrev Past := History Call Call.Answer

def Answered (h : Past) (call : Call) (answer : call.Answer) : Prop :=
  (⟨call, answer⟩ : Event Call Call.Answer) ∈ h

/-- The user is in the conversation, or in the group. -/
def Member (h : Past) (conv_id : ConvId) (user : UserId) : Prop :=
  Answered h (.is_conv_member conv_id user) (some true) ∨
    Answered h (.is_group_member conv_id user) (some true)

/-- The user stands in a list of the members. -/
def Listed (h : Past) (conv_id : ConvId) (user : UserId) : Prop :=
  ∃ members, user ∈ members ∧ (Answered h (.select_conv_members conv_id) (some members) ∨
    Answered h (.select_group_members conv_id) (some members))

def Admin (h : Past) (group_id : ConvId) (user : UserId) : Prop :=
  Answered h (.groups (.select_role group_id user)) (some (some .admin))

/-! ## What is permitted -/

/-- A message that a handler sends tells a member of what the caller did: he deleted a message,
or he read the conversation. -/
def Tells (caller : Option UserId) (h : Past) (user : UserId) (message : OutboundMessage) : Prop :=
  caller = some message.sender_id ∧ Listed h message.conv_id user ∧
    (message.msg_type = .DELETE_NOTIFY ∧ Listed h message.conv_id message.sender_id ∧
        Answered h (.delete_message message.conv_id message.msg_id) () ∨
      message.msg_type = .READ ∧ user ≠ message.sender_id ∧
        Answered h (.mark_read message.conv_id message.sender_id) ())

section Permitted

variable (services : Services) (gen : Generated) (req : Request) (h : Past)

def caller : Option UserId := require_auth services req.authorization

/-- Whoever has no token can register, and can show a password or a refresh token. -/
def permitted_auth : AuthCall → Prop
  | .select_user _ _ => True
  | .hash _ => True
  | .insert_user uid username email pw_hash =>
    uid = gen.snowflake ∧ Answered h (.auth (.select_user username email)) (some false) ∧
      ∃ password, Answered h (.auth (.hash password)) (some pw_hash)
  | .select_credentials _ => True
  | .verify _ stored_hash =>
    ∃ username uid,
      Answered h (.auth (.select_credentials username)) (some (some (uid, stored_hash)))
  | .insert_refresh_token token uid =>
    token = gen.refresh_token ∧ ∃ username password pw_hash,
      Answered h (.auth (.select_credentials username)) (some (some (uid, pw_hash))) ∧
      Answered h (.auth (.verify password pw_hash)) true
  | .delete_refresh_token _ uid => caller services req = some uid
  | .select_refresh_token _ => True
  | .rotate_refresh_token old_token new_refresh uid =>
    new_refresh = gen.refresh_token ∧
      Answered h (.auth (.select_refresh_token old_token)) (some (some uid))

/-- A group is changed by its admins, and by whoever leaves it. The sets of Redis follow the
transactions. -/
def permitted_groups : GroupsCall → Prop
  | .insert_group group_id _ creator_id _ =>
    group_id = gen.snowflake ∧ caller services req = some creator_id
  | .select_group _ => (caller services req).isSome
  | .select_members _ => (caller services req).isSome
  | .select_role _ caller_id => caller services req = some caller_id
  | .update_name group_id _ => ∃ user, caller services req = some user ∧ Admin h group_id user
  | .insert_member group_id _ => ∃ user, caller services req = some user ∧ Admin h group_id user
  | .delete_member group_id target_uid =>
    ∃ user, caller services req = some user ∧ (user = target_uid ∨ Admin h group_id user)
  | .sadd_group_member group_id user_id =>
    (∃ name creator_id member_ids created_at, user_id ∈ creator_id :: member_ids ∧ Answered h
      (.groups (.insert_group group_id name creator_id member_ids)) (some created_at)) ∨
    Answered h (.groups (.insert_member group_id user_id)) (some ())
  | .srem_group_member group_id user_id =>
    Answered h (.groups (.delete_member group_id user_id)) (some ())

def permitted : Call → Prop
  | .auth call => permitted_auth services gen req h call
  | .groups call => permitted_groups services gen req h call
  | .insert_conversation conv_id members =>
    conv_id = gen.snowflake ∧ ∃ user ∈ members, caller services req = some user
  | .select_conversations user_id => caller services req = some user_id
  | .hgetall_unread user_id => caller services req = some user_id
  | .is_conv_member _ user_id => caller services req = some user_id
  | .is_group_member _ user_id => caller services req = some user_id
  | .select_history conv_id _ _ => ∃ user, caller services req = some user ∧ Member h conv_id user
  | .select_conv_members _ => (caller services req).isSome
  | .select_group_members _ => (caller services req).isSome
  | .delete_message conv_id _ => ∃ user, caller services req = some user ∧ Listed h conv_id user
  | .lookup user_id =>
    ∃ conv_id, Listed h conv_id user_id ∧ ∃ user, caller services req = some user ∧
      (Listed h conv_id user ∨ Member h conv_id user)
  | .post user_id message =>
    Answered h (.lookup user_id) true ∧ Tells (caller services req) h user_id message
  | .lpush user_id message =>
    Answered h (.lookup user_id) false ∧ message.msg_type = .DELETE_NOTIFY ∧
      Tells (caller services req) h user_id message
  | .upload _ _ _ => (caller services req).isSome
  | .search_users _ _ => (caller services req).isSome
  | .select_user _ => True
  | .get_presence _ => (caller services req).isSome
  | .get_last_seen uid => (caller services req).isSome ∧ Answered h (.get_presence uid) none
  | .select_last_seen uid => (caller services req).isSome ∧ Answered h (.get_last_seen uid) none
  | .update_user uid _ _ => caller services req = some uid
  | .hdel_unread user_id conv_id => caller services req = some user_id ∧ Member h conv_id user_id
  | .mark_read conv_id user_id => caller services req = some user_id ∧ Member h conv_id user_id
  | .register_token user_id _ _ => caller services req = some user_id
  | .unregister_token user_id _ => caller services req = some user_id

end Permitted

/-! ## What a reply means -/

def succeeded (res : Response) : Bool :=
  res.status ∈ [.ok, .created, .no_content, .found]

/-- The call changed something. Where it can fail, it was answered with no error. -/
def changes : (call : Call) → call.Answer → Bool
  | .auth (.insert_user _ _ _ _), answer => answer.isSome
  | .auth (.insert_refresh_token _ _), answer => answer.isSome
  | .auth (.delete_refresh_token _ _), answer => answer.isSome
  | .auth (.rotate_refresh_token _ _ _), answer => answer.isSome
  | .groups (.insert_group _ _ _ _), answer => answer.isSome
  | .groups (.update_name _ _), answer => answer.isSome
  | .groups (.insert_member _ _), answer => answer.isSome
  | .groups (.delete_member _ _), answer => answer.isSome
  | .groups (.sadd_group_member _ _), _ => true
  | .groups (.srem_group_member _ _), _ => true
  | .insert_conversation _ _, answer => answer.isSome
  | .delete_message _ _, _ => true
  | .post _ _, _ => true
  | .lpush _ _, _ => true
  | .upload _ _ _, answer => answer == ""
  | .update_user _ _ _, answer => answer.isSome
  | .hdel_unread _ _, _ => true
  | .mark_read _ _, _ => true
  | .register_token _ _ _, _ => true
  | .unregister_token _ _, _ => true
  | _, _ => false

/-- Nothing has changed. -/
def Quiet (h : Past) : Prop := ∀ e ∈ h, changes e.call e.answer = false

/-- The message that an event sends, over a session or over a queue, and to whom. -/
def told (e : Event Call Call.Answer) : Option (UserId × OutboundMessage) :=
  match e.call with
  | .post user_id message => some (user_id, message)
  | .lpush user_id message => some (user_id, message)
  | _ => none

/-- A text of the body. -/
def body_text (setup : Setup) (req : Request) (key : String) : Option String :=
  (setup.services.parse req.body).bind (·.value_string key)

/-- The number in a part of the path. -/
def path_id (params : PathParams) (name : String) : Option UInt64 :=
  (params.lookup name).bind from_chars

/-- A value of the query, empty when it is not there. -/
def query_text (req : Request) (key : String) : String := (query_param req.target key).getD ""

section Earned

variable (setup : Setup) (gen : Generated) (req : Request) (params : PathParams) (h : Past)
  (res : Response)

/-- What has been done, with the values of the request, when the reply is one of success, and
what the reply shows. -/
def Earned : Endpoint → Prop
  | .register => ∃ username email password pw_hash,
      body_text setup req "username" = some username ∧
      body_text setup req "email" = some email ∧
      body_text setup req "password" = some password ∧
      Answered h (.auth (.hash password)) (some pw_hash) ∧
      Answered h (.auth (.insert_user gen.snowflake username email pw_hash)) (some ()) ∧
      res = make_json .created (.json (.object
        [("id", to_string gen.snowflake), ("username", .string username)]))
  | .login => ∃ username password uid pw_hash,
      body_text setup req "username" = some username ∧
      body_text setup req "password" = some password ∧
      Answered h (.auth (.select_credentials username)) (some (some (uid, pw_hash))) ∧
      Answered h (.auth (.verify password pw_hash)) true ∧
      Answered h (.auth (.insert_refresh_token gen.refresh_token uid)) (some ()) ∧
      res = tokens (setup.services.issue uid) gen.refresh_token
  | .logout => ∃ uid token, caller setup.services req = some uid ∧
      body_text setup req "refresh_token" = some token ∧
      Answered h (.auth (.delete_refresh_token token uid)) (some ()) ∧
      res = { status := .no_content }
  | .refresh => ∃ old_token uid, body_text setup req "refresh_token" = some old_token ∧
      Answered h (.auth (.select_refresh_token old_token)) (some (some uid)) ∧
      Answered h (.auth (.rotate_refresh_token old_token gen.refresh_token uid)) (some ()) ∧
      res = tokens (setup.services.issue uid) gen.refresh_token
  | .create_conversation => ∃ creator body items members created_at,
      caller setup.services req = some creator ∧ setup.services.parse req.body = some body ∧
      Json.value_json "member_ids" body = some (.array items) ∧
      collect_members items = .ok members ∧
      Answered h (.insert_conversation gen.snowflake (creator :: members)) (some created_at) ∧
      res = make_json .created (.json (.object
        [("conv_id", to_string gen.snowflake), ("created_at", .string created_at)]))
  | .list_conversations => ∃ user rows unread, caller setup.services req = some user ∧
      Answered h (.select_conversations user) (some rows) ∧
      Answered h (.hgetall_unread user) unread ∧
      res = make_json .ok (.json (.array (rows.map (conversation_json unread))))
  | .get_messages => ∃ user conv_id rows, caller setup.services req = some user ∧
      path_id params "id" = some conv_id ∧ Member h conv_id user ∧
      Answered h (.select_history conv_id
        (((query_param req.target "before").bind from_chars).getD INT64_MAX)
        (limit_of (query_text req "limit") 50 100)) rows ∧
      res = make_json .ok (.json (.array (rows.map (history_json setup.base64_encode))))
  | .create_group => ∃ creator body name members created_at,
      caller setup.services req = some creator ∧ setup.services.parse req.body = some body ∧
      body.value_string "name" = some name ∧ parse_members (member_items body) = some members ∧
      Answered h (.groups (.insert_group gen.snowflake name creator members))
        (some created_at) ∧
      (∀ user ∈ creator :: members,
        Answered h (.groups (.sadd_group_member gen.snowflake user)) ()) ∧
      res = make_json .created (.json (.object [("created_at", .string created_at),
        ("group_id", to_string gen.snowflake), ("name", .string name)]))
  | .get_group => ∃ user group_id group rows, caller setup.services req = some user ∧
      path_id params "id" = some group_id ∧
      Answered h (.groups (.select_group group_id)) (some (some group)) ∧
      Answered h (.groups (.select_members group_id)) (some rows) ∧
      (∃ row ∈ rows, row.user_id = user) ∧ res = make_json .ok (.json (group_json group rows))
  | .rename_group => ∃ user group_id name, caller setup.services req = some user ∧
      path_id params "id" = some group_id ∧ body_text setup req "name" = some name ∧
      Admin h group_id user ∧ Answered h (.groups (.update_name group_id name)) (some ()) ∧
      res = make_json .ok (.json (.object
        [("group_id", to_string group_id), ("name", .string name)]))
  | .add_member => ∃ user group_id new_uid, caller setup.services req = some user ∧
      path_id params "id" = some group_id ∧
      (body_text setup req "user_id").bind from_chars = some new_uid ∧ Admin h group_id user ∧
      Answered h (.groups (.insert_member group_id new_uid)) (some ()) ∧
      Answered h (.groups (.sadd_group_member group_id new_uid)) () ∧
      res = make_json .created (.json (.object
        [("group_id", to_string group_id), ("user_id", to_string new_uid)]))
  | .remove_member => ∃ user group_id target_uid, caller setup.services req = some user ∧
      path_id params "id" = some group_id ∧ path_id params "uid" = some target_uid ∧
      (user = target_uid ∨ Admin h group_id user) ∧
      Answered h (.groups (.delete_member group_id target_uid)) (some ()) ∧
      Answered h (.groups (.srem_group_member group_id target_uid)) () ∧
      res = { status := .no_content }
  | .delete_message => ∃ user conv_id msg_id members, caller setup.services req = some user ∧
      path_id params "msg_id" = some msg_id ∧
      from_chars (query_text req "conv_id") = some conv_id ∧
      (Answered h (.select_conv_members conv_id) (some members) ∨
        Answered h (.select_group_members conv_id) (some members)) ∧ user ∈ members ∧
      Answered h (.delete_message conv_id msg_id) () ∧
      h.filterMap told =
        members.reverse.map (·, delete_notify conv_id msg_id user gen.now_ms) ∧
      res = { status := .no_content }
  | .upload => ∃ boundary filename file_data out_name url, (caller setup.services req).isSome ∧
      boundary_of (octets req.content_type) = some boundary ∧
      parse_multipart req.body boundary = some (filename, file_data) ∧
      out_name = octets (generate_uuid gen.draws) ++ extract_extension filename ∧
      Answered h (.upload out_name (content_type_for out_name) file_data) "" ∧
      dumped (octets "/files/" ++ out_name) = some url ∧
      res = make_json .ok (.json (.object [("url", .string url)]))
  | .get_file => ∃ uuid sas_token, (caller setup.services req).isSome ∧
      params.lookup "uuid" = some uuid ∧
      ¬ (contains uuid "/" ∨ contains uuid "\\" ∨ contains uuid "..") ∧
      setup.blob_cfg.generate_sas uuid (query_text req "download" ≠ "") = some sas_token ∧
      res = (({ status := .found } : Response).set "Location" ("https://" ++
        setup.blob_cfg.account ++ ".blob.core.windows.net/" ++ setup.blob_cfg.container ++ "/" ++
        uuid ++ "?" ++ sas_token)).set "Cache-Control" "no-store"
  | .search_users => ∃ rows, (caller setup.services req).isSome ∧
      Answered h (.search_users (query_text req "q") (limit_of (query_text req "limit") 10 20))
        (some rows) ∧
      res = make_json .ok (.json (.object [("users", .array (rows.map fun row =>
        .object [("id", to_string row.1), ("username", .string row.2)]))]))
  | .get_user => ∃ uid row, path_id params "id" = some uid ∧
      Answered h (.select_user uid) (some (some row)) ∧
      res = make_json .ok (.json (.object
        [("avatar_url", text_or_empty row.avatar_url), ("bio", text_or_empty row.bio),
          ("id", to_string row.id), ("username", .string row.username)]))
  | .get_presence => ∃ uid server_id last_seen_at, (caller setup.services req).isSome ∧
      path_id params "id" = some uid ∧ Answered h (.get_presence uid) server_id ∧
      (server_id = none → Answered h (.get_last_seen uid) last_seen_at ∨
        Answered h (.get_last_seen uid) none ∧
          ∃ row, Answered h (.select_last_seen uid) row ∧ last_seen_at = row.bind id) ∧
      (server_id.isSome → last_seen_at = none) ∧
      res = make_json .ok (.json (presence_json uid server_id last_seen_at))
  | .update_user => ∃ user body, caller setup.services req = some user ∧
      path_id params "id" = some user ∧ setup.services.parse req.body = some body ∧
      Answered h (.update_user user (optional_string body "bio")
        (optional_string body "avatar_url")) (some ()) ∧
      res = make_json .ok (.json (.object [("updated", .bool true)]))
  | .read_conversation => ∃ user conv_id, caller setup.services req = some user ∧
      path_id params "id" = some conv_id ∧ Member h conv_id user ∧
      Answered h (.hdel_unread user conv_id) () ∧ Answered h (.mark_read conv_id user) () ∧
      res = make_json .ok (.json (.object [("ok", .bool true)]))
  | .register_push => ∃ user token platform, caller setup.services req = some user ∧
      body_text setup req "token" = some token ∧
      body_text setup req "platform" = some platform ∧
      Answered h (.register_token user token platform) () ∧
      res = make_json .ok (.json (.object [("ok", .bool true)]))
  | .unregister_push => ∃ user token, caller setup.services req = some user ∧
      body_text setup req "token" = some token ∧
      Answered h (.unregister_token user token) () ∧ res = make_json .no_content (.text "")
  | .health => res = make_json .ok (.json (.object [("status", .string "ok")]))
  | .openapi => res = make_json .ok (.text setup.spec_json)
  | .docs => res = ({ status := .ok, body := .text setup.kSwaggerHtml } : Response).set
      "Content-Type" "text/html; charset=utf-8"

/-- What is known when the handler of an endpoint has replied. -/
structure Settled (endpoint : Endpoint) : Prop where
  earned : succeeded res → Earned setup gen req params h res endpoint
  quiet : succeeded res = false → Quiet h

end Earned

/-! ## The rules of the handlers -/

section Rules

variable {C : Type} {A : C → Type} {permit : History C A → C → Prop}
  {post : History C A → Response → Prop} {h : History C A} {services : Services} {req : Request}

/-- A refusal is a reply that is allowed now. -/
def Refuses (post : History C A → Response → Prop) (h : History C A) : Prop :=
  ∀ status msg, succeeded (make_error status msg) = false → post h (make_error status msg)

theorem obeys_refusal (href : Refuses post h) {status : Status} {msg : String}
    (hs : succeeded (make_error status msg) = false) :
    (reply (make_error status msg) : Coroutine C A Response).Obeys permit post h :=
  href status msg hs

theorem obeys_with_user (href : Refuses post h) {k : UserId → Coroutine C A Response}
    (hk : ∀ user, caller services req = some user → (k user).Obeys permit post h) :
    (with_user services req k).Obeys permit post h := by
  unfold with_user
  split
  · exact href _ _ rfl
  · rename_i user huser
    exact hk user huser

theorem obeys_with_body (href : Refuses post h) {k : Json → Coroutine C A Response}
    (hk : ∀ body, services.parse req.body = some body → (k body).Obeys permit post h) :
    (with_body services req k).Obeys permit post h := by
  unfold with_body
  split
  · exact href _ _ rfl
  · rename_i body hbody
    exact hk body hbody

theorem obeys_with_value {body : Json} {key : String} {k : String → Coroutine C A Response}
    (hk : ∀ s, body.value_string key = some s → (k s).Obeys permit post h) :
    (with_value body key k).Obeys permit post h :=
  obeys_of hk

theorem obeys_with_number (href : Refuses post h) {s error : String}
    {k : UInt64 → Coroutine C A Response}
    (hk : ∀ id, from_chars s = some id → (k id).Obeys permit post h) :
    (with_number s error k).Obeys permit post h := by
  unfold with_number
  split
  · exact href _ _ rfl
  · rename_i id hid
    exact hk id hid

theorem obeys_with_id (href : Refuses post h) {params : PathParams} {name error : String}
    {k : UInt64 → Coroutine C A Response}
    (hk : ∀ id, path_id params name = some id → (k id).Obeys permit post h) :
    (with_id params name error k).Obeys permit post h :=
  obeys_of fun s hs => obeys_with_number href fun id hid => hk id (by rw [path_id, hs]; exact hid)

end Rules

variable {setup : Setup} {gen : Generated} {req : Request} {params : PathParams}
  {endpoint : Endpoint} {h : Past}

theorem quiet_nil : Quiet [] := fun _ he => absurd he List.not_mem_nil

/-- A call that has not changed anything. -/
theorem Quiet.cons (hq : Quiet h) {call : Call} {answer : call.Answer}
    (hc : changes call answer = false) : Quiet (⟨call, answer⟩ :: h) :=
  List.forall_mem_cons.mpr ⟨hc, hq⟩

/-- Nothing has changed among the calls of a handler, so it may refuse. -/
theorem Quiet.refuses {C : Type} {A : C → Type} {among : History C A → Past} {h : History C A}
    (hq : Quiet (among h)) :
    Refuses (fun h res => Settled setup gen req params (among h) res endpoint) h :=
  fun _ _ hs => ⟨fun hok => absurd (hs.symm.trans hok) Bool.false_ne_true, fun _ => hq⟩

/-- A reply of success. -/
theorem settled_of_earned {res : Response} (hs : succeeded res = true)
    (he : Earned setup gen req params h res endpoint) :
    Settled setup gen req params h res endpoint :=
  ⟨fun _ => he, fun hf => Bool.noConfusion (hs.symm.trans hf)⟩

theorem body_text_eq {body : Json} {key s : String}
    (hbody : setup.services.parse req.body = some body)
    (hs : body.value_string key = some s) : body_text setup req key = some s := by
  rw [body_text, hbody]
  exact hs

theorem answered_now {call : Call} {answer : call.Answer} :
    Answered (⟨call, answer⟩ :: h) call answer := List.mem_cons_self

theorem Answered.later {call call' : Call} {answer : call.Answer} {answer' : call'.Answer}
    (ha : Answered h call answer) : Answered (⟨call', answer'⟩ :: h) call answer :=
  List.mem_cons_of_mem _ ha

/-- The handler of an endpoint. -/
abbrev Keeps (setup : Setup) (gen : Generated) (req : Request) (params : PathParams)
    (endpoint : Endpoint) (x : HttpCoroutine) (h : Past) : Prop :=
  x.Obeys (permitted setup.services gen req)
    (fun h res => Settled setup gen req params h res endpoint) h

/-! ## The requests under /auth -/

section Auth

/-- An event of the requests under /auth, among all calls. -/
abbrev of_auth : Event AuthCall AuthCall.Answer → Event Call Call.Answer :=
  Event.lift .auth fun _ answer => answer

abbrev KeepsAuth (setup : Setup) (gen : Generated) (req : Request) (params : PathParams)
    (endpoint : Endpoint) (x : AuthCoroutine) (h : History AuthCall AuthCall.Answer) : Prop :=
  x.Obeys (fun h call => permitted setup.services gen req (h.map of_auth) (.auth call))
    (fun h res => Settled setup gen req params (h.map of_auth) res endpoint) h

variable {h : History AuthCall AuthCall.Answer}

theorem refused_auth (hq : Quiet (h.map of_auth)) {status : Status} {msg : String}
    (hs : succeeded (make_error status msg) = false) :
    KeepsAuth setup gen req params endpoint (reply (make_error status msg)) h :=
  obeys_refusal hq.refuses hs

theorem keeps_register_store {username email password pw_hash : String}
    (husername : body_text setup req "username" = some username)
    (hemail : body_text setup req "email" = some email)
    (hpassword : body_text setup req "password" = some password)
    (hq : Quiet (h.map of_auth))
    (huser : Answered (h.map of_auth) (.auth (.select_user username email)) (some false))
    (hhash : Answered (h.map of_auth) (.auth (.hash password)) (some pw_hash)) :
    KeepsAuth setup gen req params .register (register_store gen username email pw_hash) h := by
  refine obeys_await ⟨rfl, huser, password, hhash⟩ fun answer => ?_
  cases answer with
  | none =>
    refine refused_auth ?_ rfl
    exact hq.cons rfl
  | some _ =>
    exact settled_of_earned rfl ⟨username, email, password, pw_hash, husername, hemail, hpassword,
      hhash.later, answered_now, rfl⟩

theorem keeps_register_check {username email password : String}
    (husername : body_text setup req "username" = some username)
    (hemail : body_text setup req "email" = some email)
    (hpassword : body_text setup req "password" = some password) :
    KeepsAuth setup gen req params .register (register_check gen username email password) [] := by
  have hq : Quiet ([].map of_auth) := quiet_nil
  unfold register_check
  split_ifs
  · exact refused_auth hq rfl
  · exact refused_auth hq rfl
  · refine obeys_await trivial fun answer => ?_
    rcases answer with _ | taken
    · refine refused_auth ?_ rfl
      exact hq.cons rfl
    · cases taken with
      | true =>
        refine refused_auth ?_ rfl
        exact hq.cons rfl
      | false =>
        refine obeys_await trivial fun pw_hash? => obeys_of fun pw_hash hhash => ?_
        subst hhash
        exact keeps_register_store husername hemail hpassword ((hq.cons rfl).cons rfl)
          answered_now.later answered_now

theorem keeps_register : KeepsAuth setup gen req params .register
    (register setup.services gen req params) [] :=
  obeys_with_body (Quiet.refuses (h := []) quiet_nil) fun _ hbody =>
    obeys_with_value fun _ husername => obeys_with_value fun _ hemail =>
      obeys_with_value fun _ hpassword => keeps_register_check (body_text_eq hbody husername)
        (body_text_eq hbody hemail) (body_text_eq hbody hpassword)

theorem keeps_login : KeepsAuth setup gen req params .login
    (login setup.services gen req params) [] := by
  have hq : Quiet ([].map of_auth) := quiet_nil
  refine obeys_with_body hq.refuses fun _ hbody => obeys_with_value fun username husername =>
    obeys_with_value fun password hpassword => ?_
  split_ifs
  · exact refused_auth hq rfl
  · refine obeys_await trivial fun answer => ?_
    rcases answer with _ | _ | ⟨uid, pw_hash⟩
    · refine refused_auth ?_ rfl
      exact hq.cons rfl
    · refine refused_auth ?_ rfl
      exact hq.cons rfl
    · refine obeys_await ⟨username, uid, answered_now⟩ fun ok => ?_
      cases ok with
      | false =>
        refine refused_auth ?_ rfl
        exact (hq.cons rfl).cons rfl
      | true =>
        refine obeys_await ⟨rfl, username, password, pw_hash, answered_now.later, answered_now⟩
          fun answer => ?_
        cases answer with
        | none =>
          refine refused_auth ?_ rfl
          exact ((hq.cons rfl).cons rfl).cons rfl
        | some _ =>
          exact settled_of_earned rfl ⟨username, password, uid, pw_hash,
            body_text_eq hbody husername, body_text_eq hbody hpassword,
            answered_now.later.later, answered_now.later, answered_now, rfl⟩

theorem keeps_logout : KeepsAuth setup gen req params .logout
    (logout setup.services req params) [] := by
  have hq : Quiet ([].map of_auth) := quiet_nil
  refine obeys_with_user hq.refuses fun uid huid => obeys_with_body hq.refuses fun _ hbody =>
    obeys_with_value fun token htoken => ?_
  split_ifs
  · exact refused_auth hq rfl
  · refine obeys_await huid fun answer => ?_
    cases answer with
    | none =>
      refine refused_auth ?_ rfl
      exact hq.cons rfl
    | some _ =>
      exact settled_of_earned rfl ⟨uid, token, huid, body_text_eq hbody htoken, answered_now, rfl⟩

theorem keeps_refresh : KeepsAuth setup gen req params .refresh
    (refresh setup.services gen req params) [] := by
  have hq : Quiet ([].map of_auth) := quiet_nil
  refine obeys_with_body hq.refuses fun _ hbody => obeys_with_value fun old_token htoken => ?_
  split_ifs
  · exact refused_auth hq rfl
  · refine obeys_await trivial fun answer => ?_
    rcases answer with _ | _ | uid
    · refine refused_auth ?_ rfl
      exact hq.cons rfl
    · refine refused_auth ?_ rfl
      exact hq.cons rfl
    · refine obeys_await ⟨rfl, answered_now⟩ fun answer => ?_
      cases answer with
      | none =>
        refine refused_auth ?_ rfl
        exact (hq.cons rfl).cons rfl
      | some _ =>
        exact settled_of_earned rfl ⟨old_token, uid, body_text_eq hbody htoken,
          answered_now.later, answered_now, rfl⟩

/-- What the handlers keep to among their own calls, they keep to among all calls. -/
theorem keeps_auth {handler : Handler AuthCall AuthCall.Answer}
    (hx : KeepsAuth setup gen req params endpoint (handler req params) []) :
    Keeps setup gen req params endpoint (auth handler req params) [] :=
  obeys_lift (h := []) (fun _ _ => rfl) hx

end Auth

/-! ## The requests under /groups -/

section Groups

/-- An event of the requests under /groups, among all calls. -/
abbrev of_groups : Event GroupsCall GroupsCall.Answer → Event Call Call.Answer :=
  Event.lift .groups fun _ answer => answer

abbrev KeepsGroups (setup : Setup) (gen : Generated) (req : Request) (params : PathParams)
    (endpoint : Endpoint) (x : GroupsCoroutine) (h : History GroupsCall GroupsCall.Answer) : Prop :=
  x.Obeys (fun h call => permitted setup.services gen req (h.map of_groups) (.groups call))
    (fun h res => Settled setup gen req params (h.map of_groups) res endpoint) h

variable {h : History GroupsCall GroupsCall.Answer} {user : UserId} {group_id : ConvId}

theorem refused_groups (hq : Quiet (h.map of_groups)) {status : Status} {msg : String}
    (hs : succeeded (make_error status msg) = false) :
    KeepsGroups setup gen req params endpoint (reply (make_error status msg)) h :=
  obeys_refusal hq.refuses hs

/-- An event of the past is still there after others. -/
theorem answered_append {done : History GroupsCall GroupsCall.Answer} {call : Call}
    {answer : call.Answer} (ha : Answered (h.map of_groups) call answer) :
    Answered ((done ++ h).map of_groups) call answer := by
  rw [List.map_append]
  exact List.mem_append_right _ ha

/-- A command that has no answer was answered if it was called. -/
theorem answered_sadd {done : History GroupsCall GroupsCall.Answer}
    (hmem : GroupsCall.sadd_group_member group_id user ∈ done.map Event.call) :
    Answered (done.map of_groups) (.groups (.sadd_group_member group_id user)) () := by
  obtain ⟨⟨call, answer⟩, he, hcall⟩ := List.mem_map.mp hmem
  dsimp only at hcall
  subst hcall
  exact List.mem_map.mpr ⟨_, he, rfl⟩

theorem keeps_create_group_fill {body : Json} {name : String} {members : List UserId}
    {created_at : String} (huser : caller setup.services req = some user)
    (hbody : setup.services.parse req.body = some body)
    (hname : body.value_string "name" = some name)
    (hmembers : parse_members (member_items body) = some members)
    (hinsert : Answered (h.map of_groups)
      (.groups (.insert_group gen.snowflake name user members)) (some created_at)) :
    KeepsGroups setup gen req params .create_group
      (create_group_fill gen.snowflake name user members created_at) h := by
  refine obeys_each ?_ ?_
  · intro call hcall done
    obtain ⟨member, hmember, rfl⟩ := List.mem_map.mp hcall
    exact .inl ⟨name, user, members, created_at, hmember, answered_append hinsert⟩
  · intro done hdone
    refine settled_of_earned rfl ⟨user, body, name, members, created_at, huser, hbody, hname,
      hmembers, answered_append hinsert, fun member hmember => ?_, rfl⟩
    have hcalled : GroupsCall.sadd_group_member gen.snowflake member ∈ done.map Event.call := by
      rw [hdone]
      exact List.mem_reverse.mpr (List.mem_map_of_mem hmember)
    rw [List.map_append]
    exact List.mem_append_left _ (answered_sadd hcalled)

theorem keeps_create_group : KeepsGroups setup gen req params .create_group
    (create_group setup.services gen req params) [] := by
  have hq : Quiet ([].map of_groups) := quiet_nil
  refine obeys_with_user hq.refuses fun user huser => obeys_with_body hq.refuses fun _ hbody =>
    obeys_with_value fun name hname => ?_
  split_ifs
  · exact refused_groups hq rfl
  · refine obeys_of fun members hmembers => obeys_await ⟨rfl, huser⟩ fun answer => ?_
    cases answer with
    | none =>
      refine refused_groups ?_ rfl
      exact hq.cons rfl
    | some created_at => exact keeps_create_group_fill huser hbody hname hmembers answered_now

theorem keeps_get_group : KeepsGroups setup gen req params .get_group
    (get_group setup.services req params) [] := by
  have hq : Quiet ([].map of_groups) := quiet_nil
  refine obeys_with_user hq.refuses fun user huser =>
    obeys_with_id hq.refuses fun group_id hid => ?_
  have hsigned : (caller setup.services req).isSome := Option.isSome_iff_exists.mpr ⟨user, huser⟩
  refine obeys_await hsigned fun answer => ?_
  rcases answer with _ | _ | group
  · refine refused_groups ?_ rfl
    exact hq.cons rfl
  · refine refused_groups ?_ rfl
    exact hq.cons rfl
  · refine obeys_await hsigned fun answer => ?_
    cases answer with
    | none =>
      refine refused_groups ?_ rfl
      exact (hq.cons rfl).cons rfl
    | some rows =>
      dsimp only
      split_ifs with hany
      · obtain ⟨row, hrow, hself⟩ := List.any_eq_true.mp hany
        exact settled_of_earned rfl ⟨user, group_id, group, rows, huser, hid, answered_now.later,
          answered_now, ⟨row, hrow, eq_of_beq hself⟩, rfl⟩
      · refine refused_groups ?_ rfl
        exact (hq.cons rfl).cons rfl

/-- What an admin does is done after the answer to the check. -/
theorem keeps_when_admin (hq : Quiet (h.map of_groups))
    (huser : caller setup.services req = some user) {k : GroupsCoroutine}
    (hk : KeepsGroups setup gen req params endpoint k
      (⟨.select_role group_id user, some (some .admin)⟩ :: h)) :
    KeepsGroups setup gen req params endpoint (when_admin group_id user k) h := by
  refine obeys_await huser fun answer => ?_
  rcases answer with _ | _ | _ | _
  · refine refused_groups ?_ rfl
    exact hq.cons rfl
  · refine refused_groups ?_ rfl
    exact hq.cons rfl
  · exact hk
  · refine refused_groups ?_ rfl
    exact hq.cons rfl

theorem keeps_rename_group : KeepsGroups setup gen req params .rename_group
    (rename_group setup.services req params) [] := by
  have hq : Quiet ([].map of_groups) := quiet_nil
  refine obeys_with_user hq.refuses fun user huser => obeys_with_id hq.refuses fun group_id hid =>
    obeys_with_body hq.refuses fun _ hbody => obeys_with_value fun name hname => ?_
  split_ifs
  · exact refused_groups hq rfl
  · refine keeps_when_admin hq huser (obeys_await ⟨user, huser, answered_now⟩ fun answer => ?_)
    cases answer with
    | none =>
      refine refused_groups ?_ rfl
      exact (hq.cons rfl).cons rfl
    | some _ =>
      exact settled_of_earned rfl ⟨user, group_id, name, huser, hid, body_text_eq hbody hname,
        answered_now.later, answered_now, rfl⟩

theorem keeps_add_member : KeepsGroups setup gen req params .add_member
    (add_member setup.services req params) [] := by
  have hq : Quiet ([].map of_groups) := quiet_nil
  refine obeys_with_user hq.refuses fun user huser => obeys_with_id hq.refuses fun group_id hid =>
    obeys_with_body hq.refuses fun _ hbody => obeys_with_value fun uid_str huid => ?_
  split_ifs
  · exact refused_groups hq rfl
  · refine obeys_with_number hq.refuses fun new_uid hnew => keeps_when_admin hq huser ?_
    have huid' : (body_text setup req "user_id").bind from_chars = some new_uid := by
      rw [body_text_eq hbody huid]
      exact hnew
    refine obeys_await ⟨user, huser, answered_now⟩ fun answer => ?_
    cases answer with
    | none =>
      refine refused_groups ?_ rfl
      exact (hq.cons rfl).cons rfl
    | some _ =>
      refine obeys_await (.inr answered_now) fun _ => ?_
      exact settled_of_earned rfl ⟨user, group_id, new_uid, huser, hid, huid',
        answered_now.later.later, answered_now.later, answered_now, rfl⟩

/-- The removal, by who may do it. -/
theorem keeps_remove_member_delete (hq : Quiet (h.map of_groups)) {target_uid : UserId}
    (huser : caller setup.services req = some user) (hid : path_id params "id" = some group_id)
    (huid : path_id params "uid" = some target_uid)
    (hmay : user = target_uid ∨ Admin (h.map of_groups) group_id user) :
    KeepsGroups setup gen req params .remove_member
      (remove_member_delete group_id target_uid) h := by
  refine obeys_await ⟨user, huser, hmay⟩ fun answer => ?_
  cases answer with
  | none =>
    refine refused_groups ?_ rfl
    exact hq.cons rfl
  | some _ =>
    refine obeys_await answered_now fun _ => ?_
    exact settled_of_earned rfl ⟨user, group_id, target_uid, huser, hid, huid,
      hmay.imp_right fun hadmin => Answered.later (Answered.later hadmin), answered_now.later,
      answered_now, rfl⟩

theorem keeps_remove_member : KeepsGroups setup gen req params .remove_member
    (remove_member setup.services req params) [] := by
  have hq : Quiet ([].map of_groups) := quiet_nil
  refine obeys_with_user hq.refuses fun user huser => obeys_with_id hq.refuses fun group_id hid =>
    obeys_with_id hq.refuses fun target_uid huid => ?_
  split_ifs with hself
  · exact keeps_remove_member_delete hq huser hid huid (.inl hself)
  · refine obeys_await huser fun answer => ?_
    rcases answer with _ | _ | _ | _
    · refine refused_groups ?_ rfl
      exact hq.cons rfl
    · refine refused_groups ?_ rfl
      exact hq.cons rfl
    · refine keeps_remove_member_delete ?_ huser hid huid (.inr answered_now)
      exact hq.cons rfl
    · refine refused_groups ?_ rfl
      exact hq.cons rfl

theorem keeps_groups {handler : Handler GroupsCall GroupsCall.Answer}
    (hx : KeepsGroups setup gen req params endpoint (handler req params) []) :
    Keeps setup gen req params endpoint (groups handler req params) [] :=
  obeys_lift (h := []) (fun _ _ => rfl) hx

end Groups

/-! ## The other requests -/

section Others

variable {user : UserId} {conv_id : ConvId}

theorem refused (hq : Quiet h) {status : Status} {msg : String}
    (hs : succeeded (make_error status msg) = false) :
    Keeps setup gen req params endpoint (reply (make_error status msg)) h :=
  obeys_refusal hq.refuses hs

theorem Member.later {call : Call} {answer : call.Answer} (hm : Member h conv_id user) :
    Member (⟨call, answer⟩ :: h) conv_id user :=
  hm.imp Answered.later Answered.later

theorem Listed.later {call : Call} {answer : call.Answer} (hl : Listed h conv_id user) :
    Listed (⟨call, answer⟩ :: h) conv_id user := by
  obtain ⟨members, hmem, hl⟩ := hl
  exact ⟨members, hmem, hl.imp Answered.later Answered.later⟩

theorem signed_in (huser : caller setup.services req = some user) :
    (caller setup.services req).isSome :=
  Option.isSome_iff_exists.mpr ⟨user, huser⟩

theorem keeps_create_conversation : Keeps setup gen req params .create_conversation
    (create_conversation setup.services gen req params) [] := by
  refine obeys_with_user quiet_nil.refuses fun user huser =>
    obeys_with_body quiet_nil.refuses fun body hbody => obeys_of fun items hitems => ?_
  split
  · split
    · exact refused quiet_nil rfl
    · rename_i members hmembers
      refine obeys_await ⟨rfl, user, List.mem_cons_self, huser⟩ fun answer => ?_
      cases answer with
      | none => exact refused (quiet_nil.cons rfl) rfl
      | some created_at =>
        exact settled_of_earned rfl ⟨user, body, _, members, created_at, huser, hbody, hitems,
          hmembers, answered_now, rfl⟩
  · exact refused quiet_nil rfl

theorem keeps_list_conversations : Keeps setup gen req params .list_conversations
    (list_conversations setup.services req params) [] := by
  refine obeys_with_user quiet_nil.refuses fun user huser => obeys_await huser fun answer => ?_
  cases answer with
  | none => exact refused (quiet_nil.cons rfl) rfl
  | some rows =>
    refine obeys_await huser fun unread => ?_
    exact settled_of_earned rfl ⟨user, rows, unread, huser, answered_now.later, answered_now, rfl⟩

/-- What a member does is done after an answer that he is one. -/
theorem keeps_when_member (hq : Quiet h) (huser : caller setup.services req = some user)
    {error : String} {k : HttpCoroutine}
    (hk : ∀ h', Quiet h' → Member h' conv_id user → Keeps setup gen req params endpoint k h') :
    Keeps setup gen req params endpoint (when_member conv_id user error k) h := by
  refine obeys_await huser fun answer => ?_
  rcases answer with _ | _ | _
  · exact refused (hq.cons rfl) rfl
  · refine obeys_await huser fun answer => ?_
    rcases answer with _ | _ | _
    · exact refused ((hq.cons rfl).cons rfl) rfl
    · exact refused ((hq.cons rfl).cons rfl) rfl
    · exact hk _ ((hq.cons rfl).cons rfl) (.inr answered_now)
  · exact hk _ (hq.cons rfl) (.inl answered_now)

theorem obeys_with_conv_id {permit : Past → Call → Prop} {post : Past → Response → Prop}
    (href : Refuses post h) {k : ConvId → HttpCoroutine}
    (hk : ∀ conv_id, path_id params "id" = some conv_id → (k conv_id).Obeys permit post h) :
    (with_conv_id params k).Obeys permit post h := by
  unfold with_conv_id
  split
  · exact href _ _ rfl
  · rename_i s hs
    exact obeys_with_number href fun id hid => hk id (by rw [path_id, hs]; exact hid)

theorem keeps_get_messages : Keeps setup gen req params .get_messages
    (get_messages setup.services setup.base64_encode req params) [] := by
  refine obeys_with_user quiet_nil.refuses fun user huser =>
    obeys_with_conv_id quiet_nil.refuses fun conv_id hid =>
      keeps_when_member quiet_nil huser fun h _ hmember => ?_
  refine obeys_await ⟨user, huser, hmember⟩ fun rows => ?_
  exact settled_of_earned rfl
    ⟨user, conv_id, rows, huser, hid, hmember.later, answered_now, rfl⟩

/-! ### DELETE /messages/{msg_id} -/

/-- The message is deleted, and some of the members have been told so. -/
structure Deleting (setup : Setup) (gen : Generated) (req : Request) (params : PathParams)
    (user : UserId) (conv_id : ConvId) (msg_id : MsgId) (members done : List UserId)
    (h : Past) : Prop where
  user_eq : caller setup.services req = some user
  msg_id_eq : path_id params "msg_id" = some msg_id
  conv_id_eq : from_chars (query_text req "conv_id") = some conv_id
  listed : Answered h (.select_conv_members conv_id) (some members) ∨
    Answered h (.select_group_members conv_id) (some members)
  user_mem : user ∈ members
  deleted : Answered h (.delete_message conv_id msg_id) ()
  told_eq : h.filterMap told =
    done.reverse.map (·, delete_notify conv_id msg_id user gen.now_ms)

theorem Deleting.next {msg_id : MsgId} {members done : List UserId}
    (hd : Deleting setup gen req params user conv_id msg_id members done h) {call : Call}
    {answer : call.Answer} {done' : List UserId}
    (htold : done'.reverse.map (·, delete_notify conv_id msg_id user gen.now_ms) =
      (told ⟨call, answer⟩).toList ++
        done.reverse.map (·, delete_notify conv_id msg_id user gen.now_ms)) :
    Deleting setup gen req params user conv_id msg_id members done' (⟨call, answer⟩ :: h) where
  user_eq := hd.user_eq
  msg_id_eq := hd.msg_id_eq
  conv_id_eq := hd.conv_id_eq
  listed := hd.listed.imp Answered.later Answered.later
  user_mem := hd.user_mem
  deleted := hd.deleted.later
  told_eq := by
    rw [htold, ← hd.told_eq, List.filterMap_cons]
    cases told ⟨call, answer⟩ <;> rfl

/-- The induction is on the members who are not told yet. -/
theorem keeps_fan_out_delete {msg_id : MsgId} {members done rest : List UserId}
    (hmembers : members = done ++ rest)
    (hd : Deleting setup gen req params user conv_id msg_id members done h) :
    Keeps setup gen req params .delete_message
      (fan_out_delete (delete_notify conv_id msg_id user gen.now_ms)
        (reply { status := .no_content }) rest) h := by
  induction rest generalizing done h with
  | nil =>
    rw [List.append_nil] at hmembers
    refine settled_of_earned rfl ⟨user, conv_id, msg_id, members, hd.user_eq, hd.msg_id_eq,
      hd.conv_id_eq, hd.listed, hd.user_mem, hd.deleted, ?_, rfl⟩
    rw [hd.told_eq, hmembers]
  | cons member_id rest ih =>
    have hlisted : ∀ u ∈ members, Listed h conv_id u := fun u hu => ⟨members, hu, hd.listed⟩
    have hmember : Listed h conv_id member_id := hlisted member_id (by simp [hmembers])
    have huser : Listed h conv_id user := hlisted user hd.user_mem
    refine obeys_await ⟨conv_id, hmember, user, hd.user_eq, .inl huser⟩ fun online => ?_
    have hlook : Deleting setup gen req params user conv_id msg_id members done
        (⟨.lookup member_id, online⟩ :: h) := hd.next rfl
    have htells : Tells (caller setup.services req) (⟨.lookup member_id, online⟩ :: h) member_id
        (delete_notify conv_id msg_id user gen.now_ms) :=
      ⟨hd.user_eq, hmember.later, .inl ⟨rfl, huser.later, hlook.deleted⟩⟩
    have hnext : members = (done ++ [member_id]) ++ rest := by
      rw [hmembers, List.append_cons]
    have htold : (done ++ [member_id]).reverse.map
        (·, delete_notify conv_id msg_id user gen.now_ms) =
      [(member_id, delete_notify conv_id msg_id user gen.now_ms)] ++
        done.reverse.map (·, delete_notify conv_id msg_id user gen.now_ms) := by
      rw [List.reverse_append]
      rfl
    cases online with
    | true => exact obeys_await ⟨answered_now, htells⟩ fun _ => ih hnext (hlook.next htold)
    | false => exact obeys_await ⟨answered_now, rfl, htells⟩ fun _ => ih hnext (hlook.next htold)

theorem Quiet.told_eq (hq : Quiet h) : h.filterMap told = [] := by
  refine List.filterMap_eq_nil_iff.mpr fun ⟨call, answer⟩ he => ?_
  have hchanges := hq _ he
  cases call with
  | post _ _ => cases hchanges
  | lpush _ _ => cases hchanges
  | _ => rfl

/-- What follows a list of the members, of the conversation or of the group. -/
theorem keeps_with_members (hq : Quiet h) (huser : caller setup.services req = some user)
    {k : List UserId → HttpCoroutine}
    (hk : ∀ h' members, Quiet h' → (Answered h' (.select_conv_members conv_id) (some members) ∨
      Answered h' (.select_group_members conv_id) (some members)) →
        Keeps setup gen req params endpoint (k members) h') :
    Keeps setup gen req params endpoint (with_members conv_id k) h := by
  refine obeys_await (signed_in huser) fun answer => ?_
  rcases answer with _ | _ | ⟨member, members⟩
  · exact refused (hq.cons rfl) rfl
  · refine obeys_await (signed_in huser) fun answer => ?_
    cases answer with
    | none => exact refused ((hq.cons rfl).cons rfl) rfl
    | some members => exact hk _ members ((hq.cons rfl).cons rfl) (.inr answered_now)
  · exact hk _ _ (hq.cons rfl) (.inl answered_now)

theorem keeps_delete_message : Keeps setup gen req params .delete_message
    (delete_message setup.services gen req params) [] := by
  refine obeys_with_user quiet_nil.refuses fun user huser =>
    obeys_with_id quiet_nil.refuses fun msg_id hmsg => ?_
  dsimp only
  split_ifs
  · exact refused quiet_nil rfl
  · refine obeys_with_number quiet_nil.refuses fun conv_id hconv =>
      keeps_with_members quiet_nil huser fun h members hq hlisted => ?_
    split_ifs with hmem
    · refine obeys_await ⟨user, huser, members, hmem, hlisted⟩ fun _ => ?_
      refine keeps_fan_out_delete (List.nil_append members).symm
        ⟨huser, hmsg, hconv, hlisted.imp Answered.later Answered.later, hmem, answered_now,
          hq.told_eq⟩
    · exact refused hq rfl

/-! ### Files and users -/

theorem keeps_upload_file {boundary filename file_data : Bytes}
    (huser : caller setup.services req = some user)
    (hboundary : boundary_of (octets req.content_type) = some boundary)
    (hparse : parse_multipart req.body boundary = some (filename, file_data)) :
    Keeps setup gen req params .upload (upload_file gen filename file_data) [] := by
  unfold upload_file
  dsimp only
  generalize hname : octets (generate_uuid gen.draws) ++ extract_extension filename = out_name
  refine obeys_await (signed_in huser) fun upload_error => ?_
  split_ifs with herror
  · refine refused (quiet_nil.cons ?_) rfl
    exact beq_false_of_ne herror
  · obtain rfl := not_not.mp herror
    refine obeys_of fun url hurl => ?_
    exact settled_of_earned rfl ⟨boundary, filename, file_data, out_name, url, signed_in huser,
      hboundary, hparse, hname.symm, answered_now, hurl, rfl⟩

theorem keeps_upload : Keeps setup gen req params .upload
    (upload setup.services gen setup.blob_cfg req params) [] := by
  refine obeys_with_user quiet_nil.refuses fun user huser => ?_
  split_ifs
  · exact refused quiet_nil rfl
  · split
    · exact refused quiet_nil rfl
    · rename_i boundary hboundary
      split
      · exact refused quiet_nil rfl
      · rename_i hparse
        exact keeps_upload_file huser hboundary hparse

theorem keeps_get_file : Keeps setup gen req params .get_file
    (get_file setup.services setup.blob_cfg req params) [] := by
  refine obeys_with_user quiet_nil.refuses fun user huser => ?_
  split_ifs
  · exact refused quiet_nil rfl
  · refine obeys_of fun uuid huuid => ?_
    split_ifs with hunsafe
    · exact refused quiet_nil rfl
    · dsimp only
      split
      · exact refused quiet_nil rfl
      · rename_i sas_token hsas
        exact settled_of_earned rfl ⟨uuid, sas_token, signed_in huser, huuid, hunsafe, hsas, rfl⟩

theorem keeps_search_users : Keeps setup gen req params .search_users
    (search_users setup.services req params) [] := by
  refine obeys_with_user quiet_nil.refuses fun user huser => ?_
  refine obeys_ite (fun _ => refused quiet_nil rfl) fun _ => ?_
  refine obeys_await (signed_in huser) fun answer => ?_
  cases answer with
  | none => exact refused (quiet_nil.cons rfl) rfl
  | some rows => exact settled_of_earned rfl ⟨rows, signed_in huser, answered_now, rfl⟩

theorem keeps_get_user : Keeps setup gen req params .get_user (get_user req params) [] := by
  refine obeys_with_id quiet_nil.refuses fun uid hid => obeys_await trivial fun answer => ?_
  rcases answer with _ | _ | row
  · exact refused (quiet_nil.cons rfl) rfl
  · exact refused (quiet_nil.cons rfl) rfl
  · exact settled_of_earned rfl ⟨uid, row, hid, answered_now, rfl⟩

theorem keeps_get_presence : Keeps setup gen req params .get_presence
    (get_presence setup.services req params) [] := by
  refine obeys_with_user quiet_nil.refuses fun user huser =>
    obeys_with_id quiet_nil.refuses fun uid hid => ?_
  have hsigned := signed_in huser
  refine obeys_await hsigned fun server_id => ?_
  cases server_id with
  | some server_id =>
    exact settled_of_earned rfl ⟨uid, some server_id, none, hsigned, hid, answered_now,
      (fun h => nomatch h), fun _ => rfl, rfl⟩
  | none =>
    refine obeys_await ⟨hsigned, answered_now⟩ fun ts => ?_
    cases ts with
    | some ts =>
      exact settled_of_earned rfl ⟨uid, none, some ts, hsigned, hid, answered_now.later,
        fun _ => .inl answered_now, (fun h => nomatch h), rfl⟩
    | none =>
      refine obeys_await ⟨hsigned, answered_now⟩ fun row => ?_
      exact settled_of_earned rfl ⟨uid, none, row.bind id, hsigned, hid, answered_now.later.later,
        fun _ => .inr ⟨answered_now.later, row, answered_now, rfl⟩, (fun h => nomatch h), rfl⟩

theorem keeps_update_user : Keeps setup gen req params .update_user
    (update_user setup.services req params) [] := by
  refine obeys_with_user quiet_nil.refuses fun user huser =>
    obeys_with_id quiet_nil.refuses fun uid hid => ?_
  split_ifs with hself
  · exact refused quiet_nil rfl
  · obtain rfl := not_not.mp hself
    refine obeys_with_body quiet_nil.refuses fun body hbody => obeys_await huser fun answer => ?_
    cases answer with
    | none => exact refused (quiet_nil.cons rfl) rfl
    | some _ => exact settled_of_earned rfl ⟨uid, body, huser, hid, hbody, answered_now, rfl⟩

/-! ### POST /conversations/{id}/read -/

/-- The reader is a member, and what he has read is marked. -/
structure Reading (setup : Setup) (req : Request) (params : PathParams) (user : UserId)
    (conv_id : ConvId) (h : Past) : Prop where
  user_eq : caller setup.services req = some user
  conv_id_eq : path_id params "id" = some conv_id
  member : Member h conv_id user
  cleared : Answered h (.hdel_unread user conv_id) ()
  marked : Answered h (.mark_read conv_id user) ()

theorem Reading.later {call : Call} {answer : call.Answer}
    (hr : Reading setup req params user conv_id h) :
    Reading setup req params user conv_id (⟨call, answer⟩ :: h) :=
  ⟨hr.user_eq, hr.conv_id_eq, hr.member.later, hr.cleared.later, hr.marked.later⟩

theorem Reading.keeps_ok_reply (hr : Reading setup req params user conv_id h) :
    Keeps setup gen req params .read_conversation ok_reply h :=
  settled_of_earned rfl
    ⟨user, conv_id, hr.user_eq, hr.conv_id_eq, hr.member, hr.cleared, hr.marked, rfl⟩

theorem Reading.keeps_relay_read (hr : Reading setup req params user conv_id h)
    {members : List UserId}
    (hothers : ∀ member ∈ members, Listed h conv_id member ∧ member ≠ user) :
    Keeps setup gen req params .read_conversation
      (relay_read (read_message conv_id user) ok_reply members) h := by
  induction members generalizing h with
  | nil => exact hr.keeps_ok_reply
  | cons member_id members ih =>
    obtain ⟨⟨hlisted, hne⟩, hrest⟩ := List.forall_mem_cons.mp hothers
    refine obeys_await ⟨conv_id, hlisted, user, hr.user_eq, .inr hr.member⟩ fun online => ?_
    split_ifs with honline
    · obtain rfl := honline
      have htells : Tells (caller setup.services req) (⟨.lookup member_id, true⟩ :: h) member_id
          (read_message conv_id user) :=
        ⟨hr.user_eq, hlisted.later, .inr ⟨rfl, hne, hr.marked.later⟩⟩
      refine obeys_await ⟨answered_now, htells⟩ fun _ => ih hr.later.later fun m hm => ?_
      exact ⟨(hrest m hm).1.later.later, (hrest m hm).2⟩
    · refine ih hr.later fun m hm => ?_
      exact ⟨(hrest m hm).1.later, (hrest m hm).2⟩

/-- The rows of the others. -/
theorem listed_others {rows : List UserId}
    (hrows : Answered h (.select_conv_members conv_id) (some rows) ∨
      Answered h (.select_group_members conv_id) (some rows)) :
    ∀ member ∈ rows.filter (· ≠ user), Listed h conv_id member ∧ member ≠ user := by
  intro member hmem
  obtain ⟨hrow, hne⟩ := List.mem_filter.mp hmem
  exact ⟨⟨rows, hrow, hrows⟩, of_decide_eq_true hne⟩

theorem Reading.keeps_relay_to_others (hr : Reading setup req params user conv_id h) :
    Keeps setup gen req params .read_conversation (relay_to_others conv_id user ok_reply) h := by
  refine obeys_await (signed_in hr.user_eq) fun answer => ?_
  cases answer with
  | none => exact hr.later.keeps_ok_reply
  | some rows =>
    dsimp only
    split
    · refine obeys_await (signed_in hr.user_eq) fun answer => ?_
      cases answer with
      | none => exact hr.later.later.keeps_ok_reply
      | some rows => exact hr.later.later.keeps_relay_read (listed_others (.inr answered_now))
    · exact hr.later.keeps_relay_read (listed_others (.inl answered_now))

theorem keeps_read_conversation : Keeps setup gen req params .read_conversation
    (read_conversation setup.services req params) [] := by
  refine obeys_with_user quiet_nil.refuses fun user huser =>
    obeys_with_conv_id quiet_nil.refuses fun conv_id hid =>
      keeps_when_member quiet_nil huser fun h _ hmember => ?_
  refine obeys_await ⟨huser, hmember⟩ fun _ => obeys_await ⟨huser, hmember.later⟩ fun _ => ?_
  have hr : Reading setup req params user conv_id
      (⟨.mark_read conv_id user, ()⟩ :: ⟨.hdel_unread user conv_id, ()⟩ :: h) :=
    ⟨huser, hid, hmember.later.later, answered_now.later, answered_now⟩
  exact hr.keeps_relay_to_others

theorem keeps_register_push : Keeps setup gen req params .register_push
    (register_push setup.services req params) [] := by
  refine obeys_with_user quiet_nil.refuses fun user huser => obeys_with_body quiet_nil.refuses
    fun body hbody => obeys_with_value fun token htoken =>
      obeys_with_value fun platform hplatform => ?_
  split_ifs
  · exact refused quiet_nil rfl
  · refine obeys_await huser fun _ => ?_
    exact settled_of_earned rfl ⟨user, token, platform, huser, body_text_eq hbody htoken,
      body_text_eq hbody hplatform, answered_now, rfl⟩

theorem keeps_unregister_push : Keeps setup gen req params .unregister_push
    (unregister_push setup.services req params) [] := by
  refine obeys_with_user quiet_nil.refuses fun user huser => obeys_with_body quiet_nil.refuses
    fun body hbody => obeys_with_value fun token htoken => ?_
  split_ifs
  · exact refused quiet_nil rfl
  · refine obeys_await huser fun _ => ?_
    exact settled_of_earned rfl
      ⟨user, token, huser, body_text_eq hbody htoken, answered_now, rfl⟩

end Others

/-! ## Every request -/

theorem keeps_serve (setup : Setup) (gen : Generated) (endpoint : Endpoint) (req : Request)
    (params : PathParams) :
    Keeps setup gen req params endpoint (serve setup gen endpoint req params) [] := by
  cases endpoint with
  | health => exact settled_of_earned rfl rfl
  | register => exact keeps_auth keeps_register
  | login => exact keeps_auth keeps_login
  | logout => exact keeps_auth keeps_logout
  | refresh => exact keeps_auth keeps_refresh
  | create_conversation => exact @keeps_create_conversation setup gen req params
  | list_conversations => exact @keeps_list_conversations setup gen req params
  | get_messages => exact keeps_get_messages
  | create_group => exact keeps_groups keeps_create_group
  | get_group => exact keeps_groups keeps_get_group
  | rename_group => exact keeps_groups keeps_rename_group
  | add_member => exact keeps_groups keeps_add_member
  | remove_member => exact keeps_groups keeps_remove_member
  | delete_message => exact keeps_delete_message
  | upload => exact @keeps_upload setup gen req params
  | get_file => exact keeps_get_file
  | search_users => exact @keeps_search_users setup gen req params
  | get_user => exact keeps_get_user
  | get_presence => exact keeps_get_presence
  | update_user => exact keeps_update_user
  | read_conversation => exact keeps_read_conversation
  | register_push => exact @keeps_register_push setup gen req params
  | unregister_push => exact @keeps_unregister_push setup gen req params
  | openapi => exact settled_of_earned rfl rfl
  | docs => exact settled_of_earned rfl rfl

theorem obeys_handle_connection (setup : Setup) (gen : Generated) (request_id : String)
    (req : Request) : (handle_connection routes (serve setup gen) request_id req).Obeys
      (permitted setup.services gen req) (fun _ _ => True) [] := by
  unfold handle_connection
  split_ifs
  · trivial
  · trivial
  · refine obeys_catch (obeys_bind ?_) fun _ => trivial
    unfold respond
    split
    · trivial
    · exact obeys_mono (fun _ _ _ => trivial) (keeps_serve setup gen _ req _)

/-- On a connection, each call is permitted by the token of the request and by what has been
answered before the call. -/
theorem each_call_is_permitted (setup : Setup) (gen : Generated) (request_id : String)
    (req : Request) (answers : Answers Call Call.Answer) {later earlier : Past}
    {e : Event Call Call.Answer}
    (h : (handle_connection routes (serve setup gen) request_id req).history answers [] =
      later ++ e :: earlier) : permitted setup.services gen req earlier e.call := by
  have hlawful := lawful_history (obeys_handle_connection setup gen request_id req)
    trivial answers
  rw [h] at hlawful
  exact lawful_split hlawful

/-- A reply that is not one of success comes after nothing has changed. -/
theorem a_refusal_changes_nothing (setup : Setup) (gen : Generated) (endpoint : Endpoint)
    (req : Request) (params : PathParams) (answers : Answers Call Call.Answer) {res : Response}
    (hres : (serve setup gen endpoint req params).run answers = some res)
    (herror : succeeded res = false) :
    Quiet ((serve setup gen endpoint req params).history answers []) :=
  (post_of_run (keeps_serve setup gen endpoint req params) hres).quiet herror

/-! ## A small server -/

/-- The token of a user is his id. -/
def small_setup : Setup where
  services := { verify := from_chars, issue := fun _ => "", parse := fun _ => none }
  blob_cfg := { account := "", key := "", container := "", generate_sas := fun _ _ => none }
  base64_encode := fun _ => ""
  spec_json := ""
  kSwaggerHtml := ""

/-- Only the user 1 is in a conversation, and the database can be read. -/
def one_member : Answers Call Call.Answer := fun _ call =>
  match call with
  | .auth call => match call with
    | .verify _ _ => false
    | .select_user _ _ | .hash _ | .insert_user _ _ _ _ | .select_credentials _
    | .insert_refresh_token _ _ | .delete_refresh_token _ _ | .select_refresh_token _
    | .rotate_refresh_token _ _ _ => none
  | .groups call => match call with
    | .sadd_group_member _ _ | .srem_group_member _ _ => ()
    | .insert_group _ _ _ _ | .select_group _ | .select_members _ | .select_role _ _
    | .update_name _ _ | .insert_member _ _ | .delete_member _ _ => none
  | .is_conv_member _ user => some (user == 1)
  | .is_group_member _ _ => some false
  | .hgetall_unread _ | .select_history _ _ _ => []
  | .lookup _ => false
  | .upload _ _ _ => "error"
  | .delete_message _ _ | .post _ _ | .lpush _ _ | .hdel_unread _ _ | .mark_read _ _
  | .register_token _ _ _ | .unregister_token _ _ => ()
  | .insert_conversation _ _ | .select_conversations _ | .select_conv_members _
  | .select_group_members _ | .search_users _ _ | .select_user _ | .get_presence _
  | .get_last_seen _ | .select_last_seen _ | .update_user _ _ _ => none

def reading_of (authorization : String) : Request :=
  { method := .get, target := "/conversations/9/messages", authorization := authorization }

/-- The member reads the history after the answer that he is one. -/
theorem a_member_may_read : permitted small_setup.services {} (reading_of "Bearer 1")
    [⟨.is_conv_member 9 1, some true⟩] (.select_history 9 INT64_MAX 50) :=
  @each_call_is_permitted small_setup {} "" (reading_of "Bearer 1") one_member []
    [⟨.is_conv_member 9 1, some true⟩] ⟨.select_history 9 INT64_MAX 50, []⟩ rfl

/-- Another user is refused, and nothing has changed. -/
theorem a_stranger_changes_nothing :
    Quiet [⟨.is_group_member 9 2, some false⟩, ⟨.is_conv_member 9 2, some false⟩] :=
  @a_refusal_changes_nothing small_setup {} .get_messages (reading_of "Bearer 2") [("id", "9")]
    one_member (make_error .forbidden "not a member of this conversation") rfl rfl

end loomic.authorization
