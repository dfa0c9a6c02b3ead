-- The ids that clients send as strings. Each handler reads them with
-- `from_chars` and looks at the error code only, so a number with something
-- else behind it is taken for an id. The places where this happens are all here:
-- path segments, the query of DELETE /messages, and members of JSON.
import Loomic.BigInts
import Loomic.HttpHandlers
import Loomic.TextFrames

open coroutines loomic.auth_handler loomic.big_ints loomic.frame loomic.groups_handler
  loomic.http_handlers loomic.http_server loomic.json loomic.routing

namespace loomic.id_strings

/-! ## Ids -/

/-- The id that a string is: decimal digits and nothing else, of a number below `2 ^ 64`. -/
def id_of (s : String) : Option UInt64 :=
  if is_decimal s ∧ decimal s < 2 ^ 64 then some (UInt64.ofNat (decimal s)) else none

/-- An id with something else behind its digits. -/
def Trailing (s : String) : Prop :=
  ∃ digits c rest, s.toList = digits ++ c :: rest ∧ digits ≠ [] ∧
    (∀ d ∈ digits, d.isDigit = true) ∧ c.isDigit = false ∧ Nat.ofDigitChars 10 digits 0 < 2 ^ 64

theorem from_chars_digits (s : String) :
    from_chars s =
      if s.toList.takeWhile Char.isDigit = [] then none
      else if Nat.ofDigitChars 10 (s.toList.takeWhile Char.isDigit) 0 < 2 ^ 64 then
        some (UInt64.ofNat (Nat.ofDigitChars 10 (s.toList.takeWhile Char.isDigit) 0))
      else none := by
  unfold from_chars
  simp only [Nat.ofDigitChars_eq_foldl]

/-- The digits are the whole string, or something else stands behind them. -/
theorem digits_cases (s : List Char) :
    s.takeWhile Char.isDigit = s ∨
      ∃ c rest, s = s.takeWhile Char.isDigit ++ c :: rest ∧ c.isDigit = false := by
  cases hrest : s.dropWhile Char.isDigit with
  | nil =>
    have hsplit := List.takeWhile_append_dropWhile (p := Char.isDigit) (l := s)
    rw [hrest, List.append_nil] at hsplit
    exact .inl hsplit
  | cons c rest =>
    have hsplit := List.takeWhile_append_dropWhile (p := Char.isDigit) (l := s)
    have hhead := List.head_dropWhile_not Char.isDigit (l := s) (by simp [hrest])
    rw [hrest] at hsplit
    simp only [hrest, List.head_cons] at hhead
    exact .inr ⟨c, rest, hsplit.symm, hhead⟩

theorem takeWhile_digits {digits rest : List Char} {c : Char}
    (hdigits : ∀ d ∈ digits, d.isDigit = true) (hc : c.isDigit = false) :
    (digits ++ c :: rest).takeWhile Char.isDigit = digits := by
  rw [List.takeWhile_append_of_pos hdigits]
  simp [hc]

/-- A string of digits is read as the number that it denotes. -/
theorem from_chars_of_digits {s : String} (h : s.toList.takeWhile Char.isDigit = s.toList) :
    from_chars s = id_of s := by
  have hall := List.takeWhile_eq_self_iff.1 h
  rw [from_chars_digits, h, id_of, decimal]
  by_cases hempty : s.toList = []
  · have hs : s = "" := String.toList_eq_nil_iff.1 hempty
    simp [hs, is_decimal]
  · have hs : s ≠ "" := fun hs => hempty (by simp [hs])
    have hdecimal : is_decimal s = true :=
      decide_eq_true ⟨hs, List.all_eq_true.2 hall⟩
    simp [hempty, hdecimal]

/-- A string with anything else in it is no id. -/
theorem id_of_not_digits {s : String} {c : Char} (hc : c ∈ s.toList) (hdigit : c.isDigit = false) :
    id_of s = none := by
  have hno : is_decimal s = false := by
    simp only [is_decimal, decide_eq_false_iff_not, List.all_eq_true]
    exact fun h => by simp [h.2 c hc] at hdigit
  simp [id_of, hno]

theorem from_chars_eq_iff (s : String) : from_chars s = id_of s ↔ ¬ Trailing s := by
  rcases digits_cases s.toList with h | ⟨c, rest, h, hc⟩
  · refine iff_of_true (from_chars_of_digits h) ?_
    rintro ⟨digits, c, rest, hs, -, -, hc, -⟩
    have hdigit := List.takeWhile_eq_self_iff.1 h c (by simp [hs])
    rw [hc] at hdigit
    cases hdigit
  · rw [id_of_not_digits (s := s) (by rw [h]; simp) hc, from_chars_digits]
    generalize hdigits : s.toList.takeWhile Char.isDigit = digits at h ⊢
    have hall : ∀ d ∈ digits, d.isDigit = true := by
      intro d hd
      rw [← hdigits] at hd
      exact List.mem_takeWhile_imp hd
    have hiff : Trailing s ↔ digits ≠ [] ∧ Nat.ofDigitChars 10 digits 0 < 2 ^ 64 := by
      constructor
      · rintro ⟨digits', c', rest', hs, hne, hall', hc', hlt⟩
        rw [hs, takeWhile_digits hall' hc'] at hdigits
        subst hdigits
        exact ⟨hne, hlt⟩
      · rintro ⟨hne, hlt⟩
        exact ⟨digits, c, rest, h, hne, hall, hc, hlt⟩
    rw [hiff]
    by_cases hne : digits = [] <;> simp [hne]

/-! ## The places -/

/-- Where a handler reads an id from a string. -/
inductive Place
  /-- GET /conversations/{id}/messages -/
  | get_messages_id
  /-- POST /conversations/{id}/read -/
  | read_conversation_id
  /-- DELETE /messages/{msg_id} -/
  | delete_message_msg_id
  /-- DELETE /messages/{msg_id}?conv_id= -/
  | delete_message_conv_id
  /-- GET /groups/{id} -/
  | get_group_id
  /-- PATCH /groups/{id} -/
  | rename_group_id
  /-- POST /groups/{id}/members -/
  | add_member_id
  /-- DELETE /groups/{id}/members/{uid} -/
  | remove_member_id
  | remove_member_uid
  /-- GET /users/{id} -/
  | get_user_id
  /-- GET /users/{id}/presence -/
  | get_presence_id
  /-- PATCH /users/{id} -/
  | update_user_id
  /-- An item of `member_ids` of POST /conversations -/
  | create_conversation_member
  /-- An item of `member_ids` of POST /groups -/
  | create_group_member
  /-- `user_id` of POST /groups/{id}/members -/
  | add_member_user_id
  /-- `conv_id` and `group_id` of the WebSocket frames -/
  | chat_conv_id
  | group_chat_group_id
  | typing_conv_id
  | read_conv_id
  deriving DecidableEq

/-- A signed-in caller, and the rest of a request that is well formed. -/
structure Context where
  setup : Setup
  gen : Generated
  authorization : String
  user : UserId
  signed_in : require_auth setup.services authorization = some user
  /-- The other id of a request with two. -/
  other : UInt64
  /-- A name of a group, or the content of a frame. -/
  name : String
  name_ne : name ≠ ""
  /-- The members in front of the one that is read, and behind it. -/
  before : List UInt64
  after : List UInt64
  is_group : Bool

/-- A handler with its calls, or the id that is read from a frame: the outer `none` is an
exception, the inner one a frame that is ignored. -/
inductive Outcome
  | http (handler : HttpCoroutine)
  | frame (id : Option (Option ConvId))

/-- 400, or ignored on WebSocket. -/
def Refused : Outcome → Prop
  | .http handler => ∃ error, handler = reply (make_error .bad_request error)
  | .frame id => id = some none

variable (ctx : Context)

/-- The services, where the body of the request is this JSON. -/
def Context.services (body : Json) : Services :=
  { ctx.setup.services with parse := fun _ => some body }

def Context.req (target : String) : Request :=
  { method := .get, target, authorization := ctx.authorization }

/-- The handler on a request with this target and this body. -/
def Context.call (endpoint : Endpoint) (params : PathParams) (target : String) (body : Json) :
    Outcome :=
  .http (serve { ctx.setup with services := ctx.services body } ctx.gen endpoint (ctx.req target)
    params)

def Context.members (s : String) : Json :=
  .array (ctx.before.map to_string ++ .string s :: ctx.after.map to_string)

/-- What the handler at the place does with the string. -/
def Context.run : Place → String → Outcome
  | .get_messages_id, s => ctx.call .get_messages [("id", s)] "" .null
  | .read_conversation_id, s => ctx.call .read_conversation [("id", s)] "" .null
  | .delete_message_msg_id, s =>
    ctx.call .delete_message [("msg_id", s)] ("?conv_id=" ++ toString ctx.other.toNat) .null
  | .delete_message_conv_id, s =>
    ctx.call .delete_message [("msg_id", toString ctx.other.toNat)] ("?conv_id=" ++ s) .null
  | .get_group_id, s => ctx.call .get_group [("id", s)] "" .null
  | .rename_group_id, s =>
    ctx.call .rename_group [("id", s)] "" (.object [("name", .string ctx.name)])
  | .add_member_id, s =>
    ctx.call .add_member [("id", s)] "" (.object [("user_id", to_string ctx.other)])
  | .remove_member_id, s =>
    ctx.call .remove_member [("uid", toString ctx.other.toNat), ("id", s)] "" .null
  | .remove_member_uid, s =>
    ctx.call .remove_member [("uid", s), ("id", toString ctx.other.toNat)] "" .null
  | .get_user_id, s => ctx.call .get_user [("id", s)] "" .null
  | .get_presence_id, s => ctx.call .get_presence [("id", s)] "" .null
  | .update_user_id, s => ctx.call .update_user [("id", s)] "" (.object [])
  | .create_conversation_member, s =>
    ctx.call .create_conversation [] "" (.object [("member_ids", ctx.members s)])
  | .create_group_member, s =>
    ctx.call .create_group [] ""
      (.object [("name", .string ctx.name), ("member_ids", ctx.members s)])
  | .add_member_user_id, s =>
    ctx.call .add_member [("id", toString ctx.other.toNat)] "" (.object [("user_id", .string s)])
  | .chat_conv_id, s =>
    .frame ((WebSocketSession.request "conv_id"
      (.object [("conv_id", .string s), ("content", .string ctx.name)])).map (·.map Prod.fst))
  | .group_chat_group_id, s =>
    .frame ((WebSocketSession.request "group_id"
      (.object [("group_id", .string s), ("content", .string ctx.name)])).map (·.map Prod.fst))
  | .typing_conv_id, s | .read_conv_id, s =>
    .frame ((text_frames.conversation
      (.object [("conv_id", .string s), ("is_group", .bool ctx.is_group)])).map (·.map Prod.fst))

/-- A `&` ends a value of the query. -/
def Sendable (place : Place) (s : String) : Prop := place = .delete_message_conv_id → '&' ∉ s.toList

/-- The handler does with the string what it does with the id that the string is, which is
something, and it refuses every string that is no id. -/
def Meets (place : Place) (s : String) : Prop :=
  match id_of s with
  | some n => ctx.run place s = ctx.run place (toString n.toNat) ∧ ¬ Refused (ctx.run place s)
  | none => Refused (ctx.run place s)

/-! ## What each place does -/

section Steps

variable {Call : Type} {Answer : Call → Type}

theorem with_user_signed_in (body : Json) (target : String)
    (k : UserId → Coroutine Call Answer Response) :
    with_user (ctx.services body) (ctx.req target) k = k ctx.user := by
  have hauth : require_auth (ctx.services body) (ctx.req target).authorization = some ctx.user :=
    ctx.signed_in
  rw [with_user, hauth]

theorem with_body_parsed (body : Json) (target : String)
    (k : Json → Coroutine Call Answer Response) :
    with_body (ctx.services body) (ctx.req target) k = k body := by
  simp [with_body, Context.services]

end Steps

theorem req_target (target : String) : (ctx.req target).target = target := by
  simp [Context.req]

theorem query_conv_id {s : String} (h : '&' ∉ s.toList) :
    query_param ("?conv_id=" ++ s) "conv_id" = some s := by
  have htarget : ("?conv_id=" ++ s).toList =
      [] ++ '?' :: ("conv_id".toList ++ '=' :: s.toList) := by
    simp
  rw [query_param, query_pairs_one htarget (by simp) (by decide) (by simp [h])]
  simp

theorem from_chars_repr (n : UInt64) : from_chars n.toNat.repr = some n := from_chars_id n

theorem collect_members_ids (ids : List UInt64) :
    collect_members (ids.map to_string) = .ok ids := by
  induction ids with
  | nil => simp [collect_members]
  | cons n ids ih =>
    rw [List.map_cons, to_string, collect_members, from_chars_id, ih]
    simp [Except.map]

theorem collect_members_read (before after : List UInt64) (s : String) :
    collect_members (before.map to_string ++ .string s :: after.map to_string) =
      match from_chars s with
      | none => .error "invalid member_id"
      | some n => .ok (before ++ n :: after) := by
  induction before with
  | nil =>
    rw [List.map_nil, List.nil_append, collect_members, collect_members_ids]
    cases from_chars s <;> simp [Except.map]
  | cons n before ih =>
    rw [List.map_cons, List.cons_append, to_string, collect_members, from_chars_id, ih]
    cases from_chars s <;> simp [Except.map]

theorem strings_of_ids (ids : List UInt64) :
    (ids.map to_string).mapM get_string = some (ids.map fun id => toString id.toNat) := by
  induction ids with
  | nil => simp
  | cons n ids ih => simp [to_string, get_string, ih]

theorem numbers_of_ids (ids : List UInt64) :
    (ids.map fun id => toString id.toNat).filterMap from_chars = ids := by
  have hid : from_chars ∘ (fun id : UInt64 => toString id.toNat) = some := funext from_chars_id
  rw [List.filterMap_map, hid, List.filterMap_some]

/-- POST /groups leaves out what it cannot read. -/
theorem parse_members_read (before after : List UInt64) (s : String) :
    parse_members (before.map to_string ++ .string s :: after.map to_string) =
      some (before ++ ((from_chars s).toList ++ after)) := by
  have hstrings : (before.map to_string ++ .string s :: after.map to_string).mapM get_string =
      some ((before.map fun id => toString id.toNat) ++
        s :: after.map fun id => toString id.toNat) := by
    rw [List.mapM_append, List.mapM_cons, strings_of_ids, strings_of_ids]
    simp [get_string]
  rw [parse_members, hstrings, Option.map_some, List.filterMap_append, numbers_of_ids,
    List.filterMap_cons, numbers_of_ids]
  cases from_chars s <;> simp

theorem lookup_second (a s : String) :
    List.lookup "id" [("uid", a), ("id", s)] = some s := by
  have hne : ("id" == "uid") = false := by decide
  simp [List.lookup_cons, hne]

theorem query_other (n : UInt64) : query_param ("?conv_id=" ++ n.toNat.repr) "conv_id" =
    some n.toNat.repr :=
  query_conv_id (not_mem_toString (by decide) n.toNat)

theorem with_value_string {Call : Type} {Answer : Call → Type} (key s : String)
    (k : String → Coroutine Call Answer Response) :
    with_value (.object [(key, .string s)]) key k = k s := by
  simp [with_value, Json.value_string, Coroutine.of]

/-- The reply behind the insertion of a conversation. -/
def conversation_created (conv_id : ConvId) : Option String → HttpCoroutine
  | none => database_error
  | some created_at => reply (make_json .created (.json (.object
      [("conv_id", to_string conv_id), ("created_at", .string created_at)])))

theorem create_conversation_reads (s : String) :
    create_conversation (ctx.services (.object [("member_ids", ctx.members s)])) ctx.gen
        (ctx.req "") [] =
      match from_chars s with
      | none => reply (make_error .bad_request "invalid member_id")
      | some n =>
        .await (.insert_conversation ctx.gen.snowflake (ctx.user :: (ctx.before ++ n :: ctx.after)))
          (conversation_created ctx.gen.snowflake) := by
  have hread := collect_members_read ctx.before ctx.after s
  obtain ⟨item, items, hitems⟩ : ∃ item items,
      ctx.before.map to_string ++ Json.string s :: ctx.after.map to_string = item :: items :=
    List.exists_cons_of_ne_nil (by simp)
  unfold create_conversation
  rw [with_user_signed_in, with_body_parsed, Context.members]
  rw [hitems] at hread ⊢
  simp only [Json.value_json, List.lookup_cons_self, Option.getD_some, Coroutine.of, hread]
  cases from_chars s with
  | none => simp
  | some n =>
    refine congrArg (Coroutine.await _) (funext fun answer => ?_)
    cases answer <;> simp [conversation_created]

/-- What does not read as a number is left out, and the group is made all the same. -/
theorem create_group_reads (s : String) :
    create_group
        (ctx.services (.object [("name", .string ctx.name), ("member_ids", ctx.members s)]))
        ctx.gen (ctx.req "") [] =
      create_group_insert ctx.gen.snowflake ctx.name ctx.user
        (ctx.before ++ ((from_chars s).toList ++ ctx.after)) := by
  have hread := parse_members_read ctx.before ctx.after s
  have hne : ("member_ids" == "name") = false := by decide
  unfold create_group
  rw [with_user_signed_in, with_body_parsed]
  simp [with_value, Json.value_string, Coroutine.of, ctx.name_ne, member_items, List.lookup_cons,
    hne, Context.members, hread]

/-- An empty string has no digits. -/
theorem ne_empty_of_number {s : String} {n : UInt64} (h : from_chars s = some n) : s ≠ "" := by
  rintro rfl
  cases h

theorem request_reads (key : String) (hkey : key ≠ "content") (s : String) :
    (WebSocketSession.request key (.object [(key, .string s), ("content", .string ctx.name)])).map
        (fun target => target.map Prod.fst) = some (from_chars s) := by
  have hne : ("content" == key) = false := by simpa using hkey.symm
  by_cases hs : s = ""
  · subst hs
    simp [WebSocketSession.request, Json.value_string, List.lookup_cons, hne, from_chars]
  · cases hn : from_chars s <;>
      simp [WebSocketSession.request, Json.value_string, List.lookup_cons, hne, hs, hn,
        ctx.name_ne]

theorem conversation_reads (is_group : Bool) (s : String) :
    (text_frames.conversation
        (.object [("conv_id", .string s), ("is_group", .bool is_group)])).map
        (fun target => target.map Prod.fst) = some (from_chars s) := by
  have hne : ("is_group" == "conv_id") = false := by decide
  by_cases hs : s = ""
  · subst hs
    simp [text_frames.conversation, Json.value_string, Json.value_bool, List.lookup_cons, hne,
      from_chars]
  · cases hn : from_chars s <;>
      simp [text_frames.conversation, Json.value_string, Json.value_bool, List.lookup_cons, hne,
        hs, hn]

theorem run_same {place : Place} {s t : String} {n : UInt64} (hs : Sendable place s)
    (ht : Sendable place t) (hsn : from_chars s = some n) (htn : from_chars t = some n) :
    ctx.run place s = ctx.run place t := by
  have hse := ne_empty_of_number hsn
  have hte := ne_empty_of_number htn
  cases place with
  | delete_message_conv_id =>
    have hqs := query_conv_id (hs rfl)
    have hqt := query_conv_id (ht rfl)
    simp [Context.run, Context.call, serve, delete_message, with_user_signed_in, with_id,
      with_number, Coroutine.of, from_chars_repr, req_target, hqs, hqt, hse, hte, hsn, htn]
  | create_conversation_member =>
    simp [Context.run, Context.call, serve, create_conversation_reads, hsn, htn]
  | create_group_member =>
    simp [Context.run, Context.call, serve, groups, create_group_reads, hsn, htn]
  | chat_conv_id | group_chat_group_id =>
    simp [Context.run, request_reads, hsn, htn]
  | typing_conv_id | read_conv_id => simp [Context.run, conversation_reads, hsn, htn]
  | _ =>
    simp [Context.run, Context.call, serve, get_messages, read_conversation, delete_message,
      groups, get_group, rename_group, add_member, remove_member, get_user, get_presence,
      update_user, with_user_signed_in, with_body_parsed, with_conv_id, with_id, with_number,
      with_value_string, lookup_second, Coroutine.of, from_chars_repr, hse, hte, hsn, htn]

theorem refused_error (error : String) :
    Refused (.http (.ret (make_error .bad_request error))) := ⟨error, by simp [reply]⟩

theorem not_refused_await (call : Call) (resume : Call.Answer call → HttpCoroutine) :
    ¬ Refused (.http (.await call resume)) := by
  rintro ⟨error, h⟩
  simp [reply] at h

theorem not_refused_forbidden (error : String) :
    ¬ Refused (.http (reply (make_error .forbidden error))) := by
  rintro ⟨error', h⟩
  simp [reply, make_error, make_json, Response.set] at h

theorem run_refused {place : Place} {s : String} (hplace : place ≠ .create_group_member)
    (hs : Sendable place s) (hsn : from_chars s = none) : Refused (ctx.run place s) := by
  cases place with
  | delete_message_conv_id =>
    have hqs := query_conv_id (hs rfl)
    simp only [Context.run, Context.call, serve, delete_message, with_user_signed_in, with_id,
      with_number, Coroutine.of, from_chars_id, req_target, hqs, hsn, reply, Option.getD_some,
      List.lookup_cons_self]
    split <;> exact refused_error _
  | add_member_user_id =>
    by_cases hse : s = "" <;>
      simp [Context.run, Context.call, serve, groups, add_member, with_user_signed_in,
        with_body_parsed, with_id, with_number, with_value_string, Coroutine.of,
        Coroutine.lift, from_chars_repr, hse, hsn, reply, refused_error]
  | create_conversation_member =>
    simp [Context.run, Context.call, serve, create_conversation_reads, hsn, reply, refused_error]
  | create_group_member => exact absurd rfl hplace
  | chat_conv_id | group_chat_group_id => simp [Context.run, request_reads, hsn, Refused]
  | typing_conv_id | read_conv_id => simp [Context.run, conversation_reads, hsn, Refused]
  | _ =>
    simp [Context.run, Context.call, serve, get_messages, read_conversation, delete_message,
      groups, get_group, rename_group, add_member, remove_member, get_user, get_presence,
      update_user, with_user_signed_in, with_conv_id, with_id, with_number, lookup_second,
      Coroutine.of, Coroutine.lift, from_chars_repr, hsn, refused_error]

theorem run_proceeds {place : Place} {s : String} {n : UInt64} (hs : Sendable place s)
    (hsn : from_chars s = some n) : ¬ Refused (ctx.run place s) := by
  have hse := ne_empty_of_number hsn
  cases place with
  | delete_message_conv_id =>
    have hqs := query_conv_id (hs rfl)
    simp [Context.run, Context.call, serve, delete_message, with_user_signed_in, with_id,
      with_number, Coroutine.of, from_chars_repr, req_target, hqs, hse, hsn, with_members,
      not_refused_await]
  | create_conversation_member =>
    simp [Context.run, Context.call, serve, create_conversation_reads, hsn, not_refused_await]
  | create_group_member =>
    simp [Context.run, Context.call, serve, groups, create_group_reads, create_group_insert,
      Coroutine.lift, not_refused_await]
  | chat_conv_id | group_chat_group_id => simp [Context.run, request_reads, hsn, Refused]
  | typing_conv_id | read_conv_id => simp [Context.run, conversation_reads, hsn, Refused]
  | update_user_id =>
    simp only [Context.run, Context.call, serve, update_user, with_user_signed_in,
      with_body_parsed, with_id, with_number, Coroutine.of, List.lookup_cons_self, hsn]
    split
    · exact not_refused_forbidden _
    · exact not_refused_await _ _
  | remove_member_id | remove_member_uid =>
    simp only [Context.run, Context.call, serve, groups, remove_member, with_user_signed_in,
      with_id, with_number, Coroutine.of, lookup_second, List.lookup_cons_self, from_chars_id,
      hsn]
    split <;> exact not_refused_await _ _
  | _ =>
    simp [Context.run, Context.call, serve, get_messages, read_conversation, delete_message,
      groups, get_group, rename_group, add_member, get_user, get_presence, with_user_signed_in,
      with_body_parsed, with_conv_id, with_id, with_number, with_value_string, to_string,
      Coroutine.of, Coroutine.lift, from_chars_repr, req_target, query_other, hse, hsn,
      ctx.name_ne, with_members, when_member, when_admin, not_refused_await]

/-- POST /groups makes a group whatever the string is. -/
theorem create_group_proceeds (s : String) : ¬ Refused (ctx.run .create_group_member s) := by
  simp [Context.run, Context.call, serve, groups, create_group_reads, create_group_insert,
    Coroutine.lift, not_refused_await]

/-! ## The law -/

theorem id_of_number {s : String} {n : UInt64} (h : id_of s = some n) : from_chars s = some n := by
  refine Eq.trans ((from_chars_eq_iff s).2 ?_) h
  rintro ⟨digits, c, rest, hs, -, -, hc, -⟩
  rw [id_of_not_digits (c := c) (by simp [hs]) hc] at h
  cases h

theorem sendable_id (place : Place) (n : UInt64) : Sendable place (toString n.toNat) :=
  fun _ => not_mem_toString (by decide) n.toNat

/-- An id is accepted everywhere. -/
theorem meets_of_id {place : Place} {s : String} {n : UInt64} (hs : Sendable place s)
    (h : id_of s = some n) : Meets ctx place s := by
  have hsn := id_of_number h
  simp only [Meets, h]
  exact ⟨run_same ctx hs (sendable_id place n) hsn (from_chars_id n), run_proceeds ctx hs hsn⟩

/-- The law holds of a string at a place exactly when the string is not a number with something
else behind it, and, in the list of POST /groups, is an id. -/
theorem id_string_meets_iff (place : Place) (s : String) (hs : Sendable place s) :
    Meets ctx place s ↔
      ¬ Trailing s ∧ (place = .create_group_member → (id_of s).isSome = true) := by
  cases hid : id_of s with
  | some n =>
    have hmeets := meets_of_id ctx hs hid
    have hclean := (from_chars_eq_iff s).1 ((id_of_number hid).trans hid.symm)
    simp [hmeets, hclean]
  | none =>
    simp only [Meets, hid]
    constructor
    · intro hrefused
      refine ⟨fun htrailing => ?_, fun hplace => ?_⟩
      · cases hsn : from_chars s with
        | none => exact (from_chars_eq_iff s).1 (hsn.trans hid.symm) htrailing
        | some n => exact run_proceeds ctx hs hsn hrefused
      · subst hplace
        exact absurd hrefused (create_group_proceeds ctx s)
    · rintro ⟨hclean, hplace⟩
      have hsn := ((from_chars_eq_iff s).2 hclean).trans hid
      exact run_refused ctx (fun h => by simpa using hplace h) hs hsn

/-- User 7, who is signed in with the token "t". -/
def seven : Context where
  setup := {
    services := { verify := fun _ => some 7, issue := fun _ => "", parse := fun _ => none }
    blob_cfg := { account := "", key := "", container := "", generate_sas := fun _ _ => none }
    base64_encode := fun _ => ""
    spec_json := ""
    kSwaggerHtml := "" }
  gen := {}
  authorization := "Bearer t"
  user := 7
  signed_in := by simp [require_auth]
  other := 8
  name := "n"
  name_ne := by decide
  before := []
  after := []
  is_group := false

/-- In the query of DELETE /messages, "12" is an id and "-1" is none. -/
theorem the_query_follows_the_law :
    (Meets seven .delete_message_conv_id "12" ↔ ¬ Trailing "12" ∧
      (Place.delete_message_conv_id = .create_group_member → (id_of "12").isSome = true)) ∧
    (Meets seven .delete_message_conv_id "-1" ↔ ¬ Trailing "-1" ∧
      (Place.delete_message_conv_id = .create_group_member → (id_of "-1").isSome = true)) :=
  ⟨id_string_meets_iff seven _ "12" fun _ => by decide,
    id_string_meets_iff seven _ "-1" fun _ => by decide⟩

/-- GET /groups/12abc asks for group 12. -/
theorem twelve_abc_is_group_twelve :
    id_of "12abc" = none ∧ ¬ Meets seven .get_group_id "12abc" ∧
      seven.run .get_group_id "12abc" = seven.run .get_group_id "12" := by
  have hnone : id_of "12abc" = none := by decide
  have hread : from_chars "12abc" = some 12 := by decide
  refine ⟨hnone, ?_, run_same seven (by simp [Sendable]) (by simp [Sendable]) hread (by decide)⟩
  simp only [Meets, hnone]
  exact run_proceeds seven (by simp [Sendable]) hread

end loomic.id_strings
