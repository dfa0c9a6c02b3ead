-- The other requests: conversations, messages, users, receipts and push
-- tokens (ConversationsHandler.cpp, MessagesHandler.cpp, UsersHandler.cpp,
-- ReceiptsHandler.cpp, PushHandler.cpp, DocsHandler.cpp).
import Loomic.GroupsHandler

open coroutines loomic.auth_handler loomic.frame loomic.groups_handler loomic.http_server
  loomic.json loomic.uuid

namespace loomic.http_handlers

/-! ## The calls -/

/-- A row of the conversation list. A column that can be `NULL` is an option. -/
structure ConversationRow where
  kind : String
  id : ConvId
  last_activity_at : Option String
  last_msg_preview : Option String
  peer_id : UserId
  peer_name : String
  peer_bio : Option String
  peer_avatar : Option String
  group_name : String
  group_avatar : Option String

structure HistoryRow where
  msg_id : MsgId
  sender_id : UserId
  recipient_id : UserId
  content : Bytes
  msg_type : Nat
  ts_ms : Int

structure UserRow where
  id : UserId
  username : String
  bio : Option String
  avatar_url : Option String

/-- `lookup` and `post` do not suspend. They stand here because what they do is outside. -/
inductive Call
  | auth (call : AuthCall)
  | groups (call : GroupsCall)
  | insert_conversation (conv_id : ConvId) (members : List UserId)
  | select_conversations (user_id : UserId)
  | hgetall_unread (user_id : UserId)
  | is_conv_member (conv_id : ConvId) (user_id : UserId)
  | is_group_member (group_id : ConvId) (user_id : UserId)
  | select_history (conv_id before : ConvId) (limit : UInt64)
  | select_conv_members (conv_id : ConvId)
  | select_group_members (group_id : ConvId)
  | delete_message (conv_id : ConvId) (msg_id : MsgId)
  | lookup (user_id : UserId)
  | post (user_id : UserId) (message : OutboundMessage)
  | lpush (user_id : UserId) (message : OutboundMessage)
  | upload (out_name content_type file_data : Bytes)
  | search_users (q : String) (limit : UInt64)
  | select_user (uid : UserId)
  | get_presence (uid : UserId)
  | get_last_seen (uid : UserId)
  | select_last_seen (uid : UserId)
  | update_user (uid : UserId) (bio avatar_url : Option String)
  | hdel_unread (user_id : UserId) (conv_id : ConvId)
  | mark_read (conv_id : ConvId) (user_id : UserId)
  | register_token (user_id : UserId) (token platform : String)
  | unregister_token (user_id : UserId) (token : String)

/-- Postgres answers `none` when it throws. The clients of Redis and Cassandra, the registry
and PushService do not throw, and an upload gives the text of its error. -/
@[reducible] def Call.Answer : Call → Type
  | .auth call => call.Answer
  | .groups call => call.Answer
  | .insert_conversation _ _ => Option String
  | .select_conversations _ => Option (List ConversationRow)
  | .hgetall_unread _ => List (ConvId × Int)
  | .is_conv_member _ _ => Option Bool
  | .is_group_member _ _ => Option Bool
  | .select_history _ _ _ => List HistoryRow
  | .select_conv_members _ => Option (List UserId)
  | .select_group_members _ => Option (List UserId)
  | .delete_message _ _ => Unit
  | .lookup _ => Bool
  | .post _ _ => Unit
  | .lpush _ _ => Unit
  | .upload _ _ _ => String
  | .search_users _ _ => Option (List (UserId × String))
  | .select_user _ => Option (Option UserRow)
  | .get_presence _ => Option String
  | .get_last_seen _ => Option Int
  | .select_last_seen _ => Option (Option Int)
  | .update_user _ _ _ => Option Unit
  | .hdel_unread _ _ => Unit
  | .mark_read _ _ => Unit
  | .register_token _ _ _ => Unit
  | .unregister_token _ _ => Unit

abbrev HttpCoroutine := Coroutine Call Call.Answer Response

/-! ## Query strings -/

/-- The part before the first character, and the part after it, if there is one. -/
def cut_at (c : Char) (s : List Char) : Option (List Char × List Char) :=
  if c ∈ s then some (s.takeWhile (· ≠ c), (s.dropWhile (· ≠ c)).drop 1) else none

/-- The `key=value` pairs after the first `?`. A pair without `=` is passed over. -/
def query_pairs (target : String) : List (String × String) :=
  match cut_at '?' target.toList with
  | none => []
  | some (_, qs) => (qs.splitOn '&').filterMap fun pair =>
    (cut_at '=' pair).map fun (key, value) => (String.ofList key, String.ofList value)

/-- The value of the first pair with the key. The text is the same in MessagesHandler.cpp and in
UsersHandler.cpp, and `emplace` of `parse_query` keeps the first, too. -/
def query_param (target key : String) : Option String := (query_pairs target).lookup key

theorem cut_at_append {c : Char} {l₁ l₂ : List Char} (h : c ∉ l₁) :
    cut_at c (l₁ ++ c :: l₂) = some (l₁, l₂) := by
  have hne : ∀ a ∈ l₁, decide (a ≠ c) = true := by
    intro a ha
    apply decide_eq_true
    rintro rfl
    exact h ha
  have htake : (l₁ ++ c :: l₂).takeWhile (· ≠ c) = l₁ := by
    rw [List.takeWhile_append_of_pos hne]
    simp
  have hdrop : (l₁ ++ c :: l₂).dropWhile (· ≠ c) = c :: l₂ := by
    rw [List.dropWhile_append_of_pos hne]
    simp
  unfold cut_at
  rw [if_pos (List.mem_append_right _ List.mem_cons_self), htake, hdrop]
  rfl

/-- A query of one pair, and a query of two. -/
theorem query_pairs_one {target : String} {path key value : List Char}
    (htarget : target.toList = path ++ '?' :: (key ++ '=' :: value)) (hpath : '?' ∉ path)
    (hkey : '=' ∉ key) (hpair : '&' ∉ key ++ '=' :: value) :
    query_pairs target = [(String.ofList key, String.ofList value)] := by
  unfold query_pairs
  rw [htarget, cut_at_append hpath]
  dsimp only
  rw [List.splitOn_eq_singleton hpair, List.filterMap_cons, cut_at_append hkey]
  simp

theorem query_pairs_two {target : String} {path key value key' value' : List Char}
    (htarget : target.toList = path ++ '?' :: (key ++ '=' :: value ++
      '&' :: (key' ++ '=' :: value')))
    (hpath : '?' ∉ path) (hkey : '=' ∉ key) (hkey' : '=' ∉ key')
    (hpair : '&' ∉ key ++ '=' :: value) (hpair' : '&' ∉ key' ++ '=' :: value') :
    query_pairs target =
      [(String.ofList key, String.ofList value), (String.ofList key', String.ofList value')] := by
  unfold query_pairs
  rw [htarget, cut_at_append hpath]
  dsimp only
  rw [List.splitOn_append_cons_self_of_not_mem hpair, List.splitOn_eq_singleton hpair',
    List.filterMap_cons, cut_at_append hkey, List.filterMap_cons, cut_at_append hkey']
  simp

/-- `std::from_chars` into a `uint32_t`, then `std::clamp`. -/
def limit_of (s : String) (default highest : UInt64) : UInt64 :=
  match from_chars s with
  | none => default
  | some n => if n.toNat < 2 ^ 32 then max 1 (min n highest) else default

def text_or_empty (s : Option String) : Json := .string (s.getD "")

def number (n : Int) : Json := .number (toString n)

variable (services : Services) (gen : Generated)

/-! ## ConversationsHandler -/

/-- The loop over `member_ids`, with the answer that ends it early. -/
def collect_members : List Json → Except String (List UserId)
  | [] => .ok []
  | .string s :: items =>
    match from_chars s with
    | none => .error "invalid member_id"
    | some mid => (collect_members items).map (mid :: ·)
  | _ :: _ => .error "member_ids must be strings"

/-- `body.value("member_ids", json::array())` converts any member. It throws on a value that is
no object. -/
def Json.value_json (key : String) : Json → Option Json
  | .object members => some ((members.lookup key).getD (.array []))
  | _ => none

def create_conversation (req : Request) (_ : PathParams) : HttpCoroutine :=
  with_user services req fun creator_id => with_body services req fun body =>
    .of (Json.value_json "member_ids" body) fun
      | .array (item :: items) =>
        match collect_members (item :: items) with
        | .error error => reply (make_error .bad_request error)
        | .ok members => .await (.insert_conversation gen.snowflake (creator_id :: members)) fun
          | none => database_error
          | some created_at => reply (make_json .created (.json (.object
              [("conv_id", to_string gen.snowflake), ("created_at", .string created_at)])))
      | _ => reply (make_error .bad_request "member_ids must be a non-empty array")

def conversation_json (unread : List (ConvId × Int)) (row : ConversationRow) : Json :=
  .object ([("id", to_string row.id), ("kind", .string row.kind),
    ("last_activity_at", text_or_empty row.last_activity_at),
    ("last_msg_preview", text_or_empty row.last_msg_preview),
    ("unread_count", number ((unread.lookup row.id).getD 0))] ++
    if row.kind = "dm" then
      [("peer_avatar", text_or_empty row.peer_avatar), ("peer_bio", text_or_empty row.peer_bio),
        ("peer_id", to_string row.peer_id), ("peer_name", .string row.peer_name)]
    else [("group_avatar", text_or_empty row.group_avatar),
      ("group_name", .string row.group_name)])

def list_conversations (req : Request) (_ : PathParams) : HttpCoroutine :=
  with_user services req fun user_id => .await (.select_conversations user_id) fun
    | none => database_error
    | some rows => .await (.hgetall_unread user_id) fun unread =>
      reply (make_json .ok (.json (.array (rows.map (conversation_json unread)))))

/-- The two queries for the membership in a direct conversation, then in a group. -/
def when_member (conv_id : ConvId) (user_id : UserId) (error : String) (k : HttpCoroutine) :
    HttpCoroutine :=
  .await (.is_conv_member conv_id user_id) fun
    | none => database_error
    | some true => k
    | some false => .await (.is_group_member conv_id user_id) fun
      | none => database_error
      | some true => k
      | some false => reply (make_error .forbidden error)

/-- `params.find("id")`, which does not throw. -/
def with_conv_id (params : PathParams) (k : ConvId → HttpCoroutine) : HttpCoroutine :=
  match params.lookup "id" with
  | none => reply (make_error .bad_request "missing conv_id")
  | some s => with_number s "invalid conv_id" k

def INT64_MAX : UInt64 := 0x7FFFFFFFFFFFFFFF

def history_json (base64_encode : Bytes → String) (row : HistoryRow) : Json :=
  .object [("content_b64", .string (base64_encode row.content)), ("msg_id", to_string row.msg_id),
    ("msg_type", number row.msg_type), ("recipient_id", to_string row.recipient_id),
    ("sender_id", to_string row.sender_id), ("ts_ms", number row.ts_ms)]

def get_messages (base64_encode : Bytes → String) (req : Request) (params : PathParams) :
    HttpCoroutine :=
  with_user services req fun user_id => with_conv_id params fun conv_id =>
    let before := ((query_param req.target "before").bind from_chars).getD INT64_MAX
    let limit := limit_of ((query_param req.target "limit").getD "") 50 100
    when_member conv_id user_id "not a member of this conversation"
      (.await (.select_history conv_id before limit) fun messages =>
        reply (make_json .ok (.json (.array (messages.map (history_json base64_encode))))))

/-! ## MessagesHandler -/

/-- To each member: the message for the session, or for the offline queue. -/
def fan_out_delete (message : OutboundMessage) (k : HttpCoroutine) : List UserId → HttpCoroutine
  | [] => k
  | member_id :: members => .await (.lookup member_id) fun online =>
    .await (if online then .post member_id message else .lpush member_id message) fun _ =>
      fan_out_delete message k members

/-- The members of the conversation, or of the group when it has none. -/
def with_members (conv_id : ConvId) (k : List UserId → HttpCoroutine) : HttpCoroutine :=
  .await (.select_conv_members conv_id) fun
    | none => database_error
    | some [] => .await (.select_group_members conv_id) fun
      | none => database_error
      | some members => k members
    | some members => k members

def delete_notify (conv_id : ConvId) (msg_id : MsgId) (caller_id : UserId) (ts_ms : Int64) :
    OutboundMessage where
  conv_id := conv_id
  msg_id := msg_id
  sender_id := caller_id
  timestamp_ms := ts_ms
  msg_type := .DELETE_NOTIFY

def delete_message (req : Request) (params : PathParams) : HttpCoroutine :=
  with_user services req fun caller_id => with_id params "msg_id" "invalid msg_id" fun msg_id =>
    let conv_id_sv := (query_param req.target "conv_id").getD ""
    if conv_id_sv = "" then reply (make_error .bad_request "conv_id required")
    else with_number conv_id_sv "invalid conv_id" fun conv_id =>
      with_members conv_id fun members =>
        if caller_id ∈ members then .await (.delete_message conv_id msg_id) fun _ =>
          fan_out_delete (delete_notify conv_id msg_id caller_id gen.now_ms)
            (reply { status := .no_content }) members
        else reply (make_error .forbidden "not a member")

/-- The octets of a string. -/
def octets (s : String) : Bytes := s.toList.map fun c => UInt8.ofNat c.toNat

/-- What stands before the first occurrence, and after it. -/
def cut (pattern : Bytes) : Bytes → Option (Bytes × Bytes)
  | [] => if pattern = [] then some ([], []) else none
  | b :: s =>
    if pattern.isPrefixOf (b :: s) then some ([], (b :: s).drop pattern.length)
    else (cut pattern s).map fun (before, after) => (b :: before, after)

def tolower (b : UInt8) : UInt8 := if 0x41 ≤ b ∧ b ≤ 0x5A then b + 0x20 else b

/-- What follows `filename="`, in any case of letters, up to the next quote. -/
def filename_of (headers : Bytes) : Bytes :=
  match cut (octets "filename=\"") (headers.map tolower) with
  | none => []
  | some (before, _) =>
    match cut (octets "\"") (headers.drop (before.length + 10)) with
    | none => []
    | some (filename, _) => filename

def skip (b : UInt8) : Bytes → Bytes
  | c :: s => if c = b then s else c :: s
  | [] => []

/-- The file name and the bytes of the first part. -/
def parse_multipart (body boundary : Bytes) : Option (Bytes × Bytes) :=
  let delim := octets "--" ++ boundary
  (cut delim body).bind fun (_, start) =>
  (cut (octets "\r\n\r\n") (skip 0x0A (skip 0x0D start))).map fun (headers, data) =>
  (filename_of headers,
    match cut (octets "\r\n" ++ delim) data with
    | none => data
    | some (file, _) => file)

/-- From the last dot on. -/
def extract_extension (filename : Bytes) : Bytes :=
  if 0x2E ∈ filename then 0x2E :: (filename.reverse.takeWhile (· ≠ 0x2E)).reverse else []

def content_type_for (filename : Bytes) : Bytes :=
  let ext := extract_extension filename
  octets (if ext = octets ".jpg" ∨ ext = octets ".jpeg" then "image/jpeg"
    else if ext = octets ".png" then "image/png"
    else if ext = octets ".gif" then "image/gif"
    else if ext = octets ".pdf" then "application/pdf"
    else if ext = octets ".txt" then "text/plain"
    else if ext = octets ".json" then "application/json"
    else if ext = octets ".mp4" then "video/mp4"
    else "application/octet-stream")

/-- The value of `boundary=`, without its quotes. -/
def boundary_of (content_type : Bytes) : Option Bytes :=
  (cut (octets "boundary=") content_type).map fun (_, boundary) =>
    let boundary := skip 0x22 boundary
    if boundary.getLast? = some 0x22 then boundary.dropLast else boundary

structure AzureBlobConfig where
  account : String
  key : String
  container : String
  /-- The token for a blob, as an attachment or not. `none` is an exception of the SDK. -/
  generate_sas : String → Bool → Option String

def AzureBlobConfig.missing (blob_cfg : AzureBlobConfig) : Bool :=
  blob_cfg.account == "" || blob_cfg.key == ""

/-- The text of a value that holds a `std::string`: `dump` throws when it is not UTF-8. -/
def dumped (s : Bytes) : Option String := String.fromUTF8? ⟨s.toArray⟩

/-- The upload runs on the thread pool, with the exceptions of the SDK as texts. -/
def upload_file (filename file_data : Bytes) : HttpCoroutine :=
  let out_name := octets (generate_uuid gen.draws) ++ extract_extension filename
  .await (.upload out_name (content_type_for out_name) file_data) fun upload_error =>
    if upload_error ≠ "" then reply (make_error .internal_server_error "file upload error")
    else .of (dumped (octets "/files/" ++ out_name)) fun url =>
      reply (make_json .ok (.json (.object [("url", .string url)])))

def upload (blob_cfg : AzureBlobConfig) (req : Request) (_ : PathParams) : HttpCoroutine :=
  with_user services req fun _ =>
    if blob_cfg.missing then
      reply (make_error .service_unavailable "Azure Blob Storage not configured")
    else match boundary_of (octets req.content_type) with
      | none => reply (make_error .bad_request "missing boundary")
      | some boundary =>
        match parse_multipart req.body boundary with
        | none => reply (make_error .bad_request "failed to parse multipart")
        | some (filename, file_data) => upload_file gen filename file_data

def contains (s pattern : String) : Bool := (cut (octets pattern) (octets s)).isSome

def get_file (blob_cfg : AzureBlobConfig) (req : Request) (params : PathParams) :
    HttpCoroutine :=
  with_user services req fun _ =>
    if blob_cfg.missing then
      reply (make_error .service_unavailable "Azure Blob Storage not configured")
    else .of (params.lookup "uuid") fun uuid =>
      if contains uuid "/" ∨ contains uuid "\\" ∨ contains uuid ".." then
        reply (make_error .bad_request "invalid filename")
      else
        let want_download := (query_param req.target "download").getD "" ≠ ""
        match blob_cfg.generate_sas uuid want_download with
        | none => reply (make_error .internal_server_error "failed to generate file URL")
        | some sas_token =>
          let location := "https://" ++ blob_cfg.account ++ ".blob.core.windows.net/" ++
            blob_cfg.container ++ "/" ++ uuid ++ "?" ++ sas_token
          reply ((({ status := .found } : Response).set "Location" location).set
            "Cache-Control" "no-store")

/-! ## UsersHandler -/

def search_users (req : Request) (_ : PathParams) : HttpCoroutine :=
  with_user services req fun _ =>
    let q := (query_param req.target "q").getD ""
    let limit := limit_of ((query_param req.target "limit").getD "") 10 20
    if q.length < 2 then reply (make_error .bad_request "q must be at least 2 characters")
    else .await (.search_users q limit) fun
      | none => database_error
      | some rows => reply (make_json .ok (.json (.object [("users", .array (rows.map fun row =>
          .object [("id", to_string row.1), ("username", .string row.2)]))])))

def get_user (_ : Request) (params : PathParams) : HttpCoroutine :=
  with_id params "id" "invalid id" fun uid => .await (.select_user uid) fun
    | none => database_error
    | some none => reply (make_error .not_found "user not found")
    | some (some row) => reply (make_json .ok (.json (.object
        [("avatar_url", text_or_empty row.avatar_url), ("bio", text_or_empty row.bio),
          ("id", to_string row.id), ("username", .string row.username)])))

def presence_json (uid : UserId) (server_id : Option String) (last_seen_at : Option Int) : Json :=
  .object [("last_seen_at", (last_seen_at.map number).getD .null),
    ("online", .bool server_id.isSome), ("server_id", (server_id.map .string).getD .null),
    ("user_id", to_string uid)]

/-- An exception of the fallback leaves `last_seen_at` null. -/
def get_presence (req : Request) (params : PathParams) : HttpCoroutine :=
  with_user services req fun _ => with_id params "id" "invalid id" fun uid =>
    .await (.get_presence uid) fun
      | some server_id => reply (make_json .ok (.json (presence_json uid (some server_id) none)))
      | none => .await (.get_last_seen uid) fun
        | some ts => reply (make_json .ok (.json (presence_json uid none (some ts))))
        | none => .await (.select_last_seen uid) fun row =>
          reply (make_json .ok (.json (presence_json uid none (row.bind id))))

/-- A member of the body, if it is there and is a string. -/
def optional_string (body : Json) (key : String) : Option String :=
  (body.value_string key).bind fun s =>
    match body with
    | .object members => (members.lookup key).map fun _ => s
    | _ => none

def update_user (req : Request) (params : PathParams) : HttpCoroutine :=
  with_user services req fun user => with_id params "id" "invalid id" fun uid =>
    if uid ≠ user then reply (make_error .forbidden "cannot modify another user")
    else with_body services req fun body =>
      .await (.update_user uid (optional_string body "bio") (optional_string body "avatar_url")) fun
        | none => database_error
        | some () => reply (make_json .ok (.json (.object [("updated", .bool true)])))

/-! ## ReceiptsHandler -/

def read_message (conv_id : ConvId) (user_id : UserId) : OutboundMessage where
  msg_type := .READ
  conv_id := conv_id
  sender_id := user_id
  recipient_id := conv_id

/-- To each member who is online. -/
def relay_read (message : OutboundMessage) (k : HttpCoroutine) : List UserId → HttpCoroutine
  | [] => k
  | member_id :: members => .await (.lookup member_id) fun online =>
    if online then .await (.post member_id message) fun _ => relay_read message k members
    else relay_read message k members

/-- The queries leave out the rows of the reader. An exception ends the relay, not the request. -/
def relay_to_others (conv_id : ConvId) (user_id : UserId) (k : HttpCoroutine) : HttpCoroutine :=
  let message := read_message conv_id user_id
  .await (.select_conv_members conv_id) fun
    | none => k
    | some rows =>
      match rows.filter (· ≠ user_id) with
      | [] => .await (.select_group_members conv_id) fun
        | none => k
        | some rows => relay_read message k (rows.filter (· ≠ user_id))
      | others => relay_read message k others

def ok_reply : HttpCoroutine := reply (make_json .ok (.json (.object [("ok", .bool true)])))

def read_conversation (req : Request) (params : PathParams) : HttpCoroutine :=
  with_user services req fun user_id => with_conv_id params fun conv_id =>
    when_member conv_id user_id "not a member"
      (.await (.hdel_unread user_id conv_id) fun _ =>
        .await (.mark_read conv_id user_id) fun _ => relay_to_others conv_id user_id ok_reply)

/-! ## PushHandler -/

def register_push (req : Request) (_ : PathParams) : HttpCoroutine :=
  with_user services req fun user_id => with_body services req fun body =>
    with_value body "token" fun token => with_value body "platform" fun platform =>
      if token = "" ∨ platform = "" then
        reply (make_error .bad_request "token and platform required")
      else .await (.register_token user_id token platform) fun _ => ok_reply

def unregister_push (req : Request) (_ : PathParams) : HttpCoroutine :=
  with_user services req fun user_id => with_body services req fun body =>
    with_value body "token" fun token =>
      if token = "" then reply (make_error .bad_request "token required")
      else .await (.unregister_token user_id token) fun _ =>
        reply (make_json .no_content (.text ""))

/-! ## The route table -/

/-- What the handlers are built from. -/
structure Setup where
  services : Services
  blob_cfg : AzureBlobConfig
  base64_encode : Bytes → String
  spec_json : String
  kSwaggerHtml : String

def health : Handler Call Call.Answer :=
  fun _ _ => reply (make_json .ok (.json (.object [("status", .string "ok")])))

def openapi (spec_json : String) : Handler Call Call.Answer :=
  fun _ _ => reply (make_json .ok (.text spec_json))

def docs (kSwaggerHtml : String) : Handler Call Call.Answer := fun _ _ =>
  reply (({ status := .ok, body := .text kSwaggerHtml } : Response).set "Content-Type"
    "text/html; charset=utf-8")

inductive Endpoint
  | health
  | register
  | login
  | logout
  | refresh
  | create_conversation
  | list_conversations
  | get_messages
  | create_group
  | get_group
  | rename_group
  | add_member
  | remove_member
  | delete_message
  | upload
  | get_file
  | search_users
  | get_user
  | get_presence
  | update_user
  | read_conversation
  | register_push
  | unregister_push
  | openapi
  | docs
  deriving DecidableEq, Repr

/-- The routes in the order in which they are added. -/
def routes : List (Route Endpoint) :=
  [⟨.get, "/health", .health⟩,
    ⟨.post, "/auth/register", .register⟩,
    ⟨.post, "/auth/login", .login⟩,
    ⟨.post, "/auth/logout", .logout⟩,
    ⟨.post, "/auth/refresh", .refresh⟩,
    ⟨.post, "/conversations", .create_conversation⟩,
    ⟨.get, "/conversations", .list_conversations⟩,
    ⟨.get, "/conversations/{id}/messages", .get_messages⟩,
    ⟨.post, "/groups", .create_group⟩,
    ⟨.get, "/groups/{id}", .get_group⟩,
    ⟨.patch, "/groups/{id}", .rename_group⟩,
    ⟨.post, "/groups/{id}/members", .add_member⟩,
    ⟨.delete_, "/groups/{id}/members/{uid}", .remove_member⟩,
    ⟨.delete_, "/messages/{msg_id}", .delete_message⟩,
    ⟨.post, "/upload", .upload⟩,
    ⟨.get, "/files/{uuid}", .get_file⟩,
    ⟨.get, "/users/search", .search_users⟩,
    ⟨.get, "/users/{id}", .get_user⟩,
    ⟨.get, "/users/{id}/presence", .get_presence⟩,
    ⟨.patch, "/users/{id}", .update_user⟩,
    ⟨.post, "/conversations/{id}/read", .read_conversation⟩,
    ⟨.post, "/push/register", .register_push⟩,
    ⟨.delete_, "/push/register", .unregister_push⟩,
    ⟨.get, "/openapi.json", .openapi⟩,
    ⟨.get, "/docs", .docs⟩]

def auth (handler : Handler AuthCall AuthCall.Answer) : Handler Call Call.Answer :=
  fun req params => (handler req params).lift .auth fun _ answer => answer

def groups (handler : Handler GroupsCall GroupsCall.Answer) : Handler Call Call.Answer :=
  fun req params => (handler req params).lift .groups fun _ answer => answer

/-- The handlers by name. -/
def serve (setup : Setup) (gen : Generated) : Endpoint → Handler Call Call.Answer
  | .health => health
  | .register => auth (register setup.services gen)
  | .login => auth (login setup.services gen)
  | .logout => auth (logout setup.services)
  | .refresh => auth (refresh setup.services gen)
  | .create_conversation => create_conversation setup.services gen
  | .list_conversations => list_conversations setup.services
  | .get_messages => get_messages setup.services setup.base64_encode
  | .create_group => groups (create_group setup.services gen)
  | .get_group => groups (get_group setup.services)
  | .rename_group => groups (rename_group setup.services)
  | .add_member => groups (add_member setup.services)
  | .remove_member => groups (remove_member setup.services)
  | .delete_message => delete_message setup.services gen
  | .upload => upload setup.services gen setup.blob_cfg
  | .get_file => get_file setup.services setup.blob_cfg
  | .search_users => search_users setup.services
  | .get_user => get_user
  | .get_presence => get_presence setup.services
  | .update_user => update_user setup.services
  | .read_conversation => read_conversation setup.services
  | .register_push => register_push setup.services
  | .unregister_push => unregister_push setup.services
  | .openapi => openapi setup.spec_json
  | .docs => docs setup.kSwaggerHtml

end loomic.http_handlers
