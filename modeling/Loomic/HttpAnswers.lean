-- When a request is answered: the handlers throw where they read a member of
-- the body that is no string, where the hash throws, and where a file name is
-- no text. The connection swallows an exception and closes without a response.
import Loomic.HttpHandlers
import Loomic.TextFrames
import Loomic.WebSocketTexts

open coroutines loomic.auth_handler loomic.frame loomic.groups_handler loomic.http_handlers
  loomic.http_server loomic.json loomic.uuid
open loomic.text_frames (IsObject StringOrAbsent value_string_isSome)
open loomic.websocket_texts (is_utf8)

namespace loomic.http_answers

/-! ## What a request should be -/

/-- A valid token. -/
def SignedIn (services : Services) (req : Request) : Prop :=
  ∃ user, require_auth services req.authorization = some user

/-- A body that is JSON is an object, whose members with these keys are strings, or absent. -/
def HasStrings (services : Services) (req : Request) (keys : List String) : Prop :=
  ∀ body ∈ services.parse req.body, IsObject body ∧ ∀ key ∈ keys, StringOrAbsent key body

/-- The items of `member_ids` are strings, if the group has a name. -/
def HasMemberIds (services : Services) (req : Request) : Prop :=
  ∀ body ∈ services.parse req.body, body.value_string "name" ≠ some "" →
    ∀ item ∈ member_items body, ∃ s, item = .string s

/-- The segment is an id. -/
def HasId (params : PathParams) (name : String) : Prop :=
  ∃ id, (params.lookup name).bind from_chars = some id

/-- The request gives all that a new user needs. -/
def Registers (services : Services) (req : Request) (username email password : String) : Prop :=
  ∃ body ∈ services.parse req.body, body.value_string "username" = some username ∧
    body.value_string "email" = some email ∧ body.value_string "password" = some password ∧
    username ≠ "" ∧ email ≠ "" ∧ password ≠ "" ∧ 6 ≤ password.utf8ByteSize

/-- The hash does not throw, if the user is new. -/
def Hashes (services : Services) (req : Request) (answers : Answers Call Call.Answer) : Prop :=
  ∀ username email password, Registers services req username email password →
    answers 0 (.auth (.select_user username email)) = some false →
      ∃ pw_hash, answers 1 (.auth (.hash password)) = some pw_hash

/-- The extension of the file name is text, if the upload is made. -/
def HasTextExtension (draws : Draws) (req : Request)
    (answers : Answers Call Call.Answer) : Prop :=
  ∀ boundary filename file_data, boundary_of (octets req.content_type) = some boundary →
    parse_multipart req.body boundary = some (filename, file_data) →
    let out_name := octets (generate_uuid draws) ++ extract_extension filename
    answers 0 (.upload out_name (content_type_for out_name) file_data) = "" →
      is_utf8 (extract_extension filename)

/-- What each handler takes for granted about its request, and about what it is answered. -/
def Readable (setup : Setup) (gen : Generated) (answers : Answers Call Call.Answer)
    (req : Request) (params : PathParams) : Endpoint → Prop
  | .register =>
    HasStrings setup.services req ["username", "email", "password"] ∧
      Hashes setup.services req answers
  | .login => HasStrings setup.services req ["username", "password"]
  | .logout => SignedIn setup.services req → HasStrings setup.services req ["refresh_token"]
  | .refresh => HasStrings setup.services req ["refresh_token"]
  | .create_conversation => SignedIn setup.services req → HasStrings setup.services req []
  | .create_group =>
    SignedIn setup.services req → HasStrings setup.services req ["name"] ∧
      HasMemberIds setup.services req
  | .rename_group =>
    SignedIn setup.services req → HasId params "id" → HasStrings setup.services req ["name"]
  | .add_member =>
    SignedIn setup.services req → HasId params "id" → HasStrings setup.services req ["user_id"]
  | .register_push =>
    SignedIn setup.services req → HasStrings setup.services req ["token", "platform"]
  | .unregister_push => SignedIn setup.services req → HasStrings setup.services req ["token"]
  | .upload =>
    SignedIn setup.services req → setup.blob_cfg.missing = false →
      HasTextExtension gen.draws req answers
  | _ => True

/-- Exactly one response is written on the connection. -/
def Answered (setup : Setup) (gen : Generated) (request_id : String)
    (answers : Answers Call Call.Answer) (req : Request) : Prop :=
  ((handle_connection routes (serve setup gen) request_id req).run answers).map List.length = some 1

instance decidable_answered (setup : Setup) (gen : Generated) (request_id : String)
    (answers : Answers Call Call.Answer) (req : Request) :
    Decidable (Answered setup gen request_id answers req) := by
  unfold Answered
  infer_instance

/-! ## The text of a URL -/

theorem utf8EncodeChar_ascii {c : Char} (h : c.toNat < 0x80) :
    String.utf8EncodeChar c = [UInt8.ofNat c.toNat] := by
  unfold String.utf8EncodeChar
  have hle : c.val.toNat ≤ 0x7F := Nat.le_of_lt_succ h
  simp only [hle, ↓reduceIte]
  rfl

theorem map_octet_ascii {cs : List Char} (h : IsAscii cs) :
    (cs.map fun c => UInt8.ofNat c.toNat) = cs.flatMap String.utf8EncodeChar := by
  induction cs with
  | nil => rfl
  | cons c cs ih =>
    rw [List.map_cons, List.flatMap_cons, ih fun d hd => h d (List.mem_cons_of_mem c hd),
      utf8EncodeChar_ascii (h c List.mem_cons_self)]
    rfl

/-- Text before the bytes does not change whether they are UTF-8. -/
theorem is_utf8_append {s : String} (hs : IsAscii s.toList) (ext : Bytes) :
    is_utf8 (octets s ++ ext) = is_utf8 ext := by
  unfold is_utf8
  rw [Bool.eq_iff_iff, ByteArray.validateUTF8_eq_true_iff, ByteArray.validateUTF8_eq_true_iff]
  have happend : (⟨(octets s ++ ext).toArray⟩ : ByteArray) =
      s.toList.utf8Encode ++ ⟨ext.toArray⟩ := by
    apply ByteArray.ext
    unfold octets
    rw [map_octet_ascii hs, ByteArray.data_append, List.utf8Encode, List.data_toByteArray]
    simp
  rw [happend]
  constructor
  · rintro ⟨m, hm⟩
    obtain ⟨t, rfl⟩ := List.isPrefix_of_utf8Encode_append_eq_utf8Encode _ hm
    rw [List.utf8Encode_append] at hm
    exact ⟨t, (ByteArray.append_right_inj _).mp hm⟩
  · intro h
    exact ByteArray.isValidUTF8_utf8Encode.append h

theorem dumped_isSome (s : Bytes) : (dumped s).isSome = is_utf8 s := by
  unfold dumped String.fromUTF8? is_utf8
  split
  · rename_i h
    rw [ByteArray.validateUTF8_eq_true_iff.mpr h]
    rfl
  · rename_i h
    rw [← ByteArray.validateUTF8_eq_true_iff, Bool.not_eq_true] at h
    rw [h]
    rfl

theorem files_ascii : IsAscii "/files/".toList := by
  intro c hc
  have hlist : "/files/".toList = ['/', 'f', 'i', 'l', 'e', 's', '/'] := rfl
  rw [hlist] at hc
  simp only [List.mem_cons, List.not_mem_nil, or_false] at hc
  rcases hc with rfl | rfl | rfl | rfl | rfl | rfl | rfl <;> decide

/-- The URL of an upload is text when the extension is. -/
theorem url_isSome (draws : Draws) (ext : Bytes) :
    (dumped (octets "/files/" ++ (octets (generate_uuid draws) ++ ext))).isSome = is_utf8 ext := by
  rw [dumped_isSome, is_utf8_append files_ascii, is_utf8_append (generate_uuid_ascii draws)]

/-! ## The steps of a handler -/

section Steps

variable {C : Type} {A : C → Type} {services : Services} {req : Request} {params : PathParams}
  {answers : Answers C A}

theorem returns_reply (res : Response) : (reply res : Coroutine C A Response).Returns :=
  returns_ret res

theorem returns_database_error : (database_error : Coroutine C A Response).Returns :=
  returns_ret _

theorem with_user_isSome {k : UserId → Coroutine C A Response} :
    ((with_user services req k).run answers).isSome ↔
      ∀ user, require_auth services req.authorization = some user →
        ((k user).run answers).isSome := by
  unfold with_user
  cases require_auth services req.authorization with
  | none => simp
  | some user => simp

theorem with_body_isSome {k : Json → Coroutine C A Response} :
    ((with_body services req k).run answers).isSome ↔
      ∀ body ∈ services.parse req.body, ((k body).run answers).isSome := by
  unfold with_body
  cases services.parse req.body with
  | none => simp
  | some body => simp

theorem with_value_isSome {body : Json} {key : String} {k : String → Coroutine C A Response} :
    ((with_value body key k).run answers).isSome ↔
      ∃ s, body.value_string key = some s ∧ ((k s).run answers).isSome :=
  run_of_isSome

theorem with_id_isSome {name error : String} {k : UInt64 → Coroutine C A Response}
    (hname : ∃ s, params.lookup name = some s) :
    ((with_id params name error k).run answers).isSome ↔
      ∀ id, (params.lookup name).bind from_chars = some id → ((k id).run answers).isSome := by
  obtain ⟨s, hs⟩ := hname
  unfold with_id with_number
  rw [hs]
  simp only [Coroutine.of, Option.bind_some]
  cases from_chars s with
  | none => simp
  | some id => simp

theorem returns_with_user {k : UserId → Coroutine C A Response} (h : ∀ user, (k user).Returns) :
    (with_user services req k).Returns :=
  fun answers => with_user_isSome.mpr fun user _ => h user answers

theorem returns_with_body {k : Json → Coroutine C A Response} (h : ∀ body, (k body).Returns) :
    (with_body services req k).Returns :=
  fun answers => with_body_isSome.mpr fun body _ => h body answers

theorem returns_with_number {s error : String} {k : UInt64 → Coroutine C A Response}
    (h : ∀ id, (k id).Returns) : (with_number s error k).Returns := by
  unfold with_number
  cases from_chars s with
  | none => exact returns_ret _
  | some id => exact h id

theorem returns_with_id {name error : String} {k : UInt64 → Coroutine C A Response}
    (hname : ∃ s, params.lookup name = some s) (h : ∀ id, (k id).Returns) :
    (with_id params name error k).Returns :=
  fun answers => (with_id_isSome hname).mpr fun id _ => h id answers

/-- The members are read one after the other. -/
theorem has_strings_iff {body : Json} {keys : List String} (hkeys : keys ≠ []) :
    (IsObject body ∧ ∀ key ∈ keys, StringOrAbsent key body) ↔
      ∀ key ∈ keys, ∃ s, body.value_string key = some s := by
  simp only [← Option.isSome_iff_exists, value_string_isSome]
  constructor
  · rintro ⟨hobj, hall⟩ key hkey
    exact ⟨hobj, hall key hkey⟩
  · intro h
    obtain ⟨key, hkey⟩ := List.exists_mem_of_ne_nil keys hkeys
    exact ⟨(h key hkey).1, fun key hkey => (h key hkey).2⟩

/-- A handler that only reads one member, and then returns. -/
theorem reads_one {key : String} {k : Json → String → Coroutine C A Response}
    (hk : ∀ body s, (k body s).Returns) :
    ((with_body services req fun body => with_value body key (k body)).run answers).isSome ↔
      HasStrings services req [key] := by
  rw [with_body_isSome]
  apply forall₂_congr
  intro body _
  rw [has_strings_iff (List.cons_ne_nil _ _), with_value_isSome]
  simp [hk body _ answers]

/-- A handler that reads two members, and then returns. -/
theorem reads_two {key₁ key₂ : String} {k : Json → String → String → Coroutine C A Response}
    (hk : ∀ body s t, (k body s t).Returns) :
    ((with_body services req fun body => with_value body key₁ fun s =>
      with_value body key₂ (k body s)).run answers).isSome ↔
      HasStrings services req [key₁, key₂] := by
  rw [with_body_isSome]
  apply forall₂_congr
  intro body _
  rw [has_strings_iff (List.cons_ne_nil _ _), with_value_isSome]
  simp only [with_value_isSome, hk body _ _ answers, and_true, List.forall_mem_cons,
    List.not_mem_nil, false_implies, implies_true]
  simp

end Steps

/-! ## The requests under /auth -/

section Auth

variable {services : Services} {gen : Generated} {req : Request} {params : PathParams}
  {answers : Answers AuthCall AuthCall.Answer}

theorem returns_register_store (username email pw_hash : String) :
    (register_store gen username email pw_hash).Returns := by
  apply returns_await
  rintro (_ | _)
  · exact returns_database_error
  · exact returns_reply _

theorem register_hash_isSome {username email password : String} :
    ((register_hash gen username email password).run answers).isSome ↔
      ∃ pw_hash, answers 0 (.hash password) = some pw_hash := by
  unfold register_hash
  rw [run_await, run_of_isSome]
  apply exists_congr
  intro pw_hash
  exact and_iff_left (returns_register_store username email pw_hash _)

theorem register_check_isSome {username email password : String} :
    ((register_check gen username email password).run answers).isSome ↔
      (username ≠ "" ∧ email ≠ "" ∧ password ≠ "" ∧ 6 ≤ password.utf8ByteSize →
        answers 0 (.select_user username email) = some false →
          ∃ pw_hash, answers 1 (.hash password) = some pw_hash) := by
  unfold register_check
  split
  · rename_i hempty
    simp only [reply, run_ret, Option.isSome_some, true_iff]
    tauto
  rename_i hfull
  split
  · rename_i hshort
    simp only [reply, run_ret, Option.isSome_some, true_iff]
    omega
  rename_i hlong
  rw [run_await]
  cases hsel : answers 0 (.select_user username email) with
  | none => simp [database_error]
  | some taken =>
    cases taken with
    | true => simp [reply]
    | false =>
      simp only [register_hash_isSome, Answers.tail]
      push Not at hfull hlong
      tauto

theorem register_isSome :
    ((register services gen req params).run answers).isSome ↔
      HasStrings services req ["username", "email", "password"] ∧
        ∀ username email password, Registers services req username email password →
          answers 0 (.select_user username email) = some false →
            ∃ pw_hash, answers 1 (.hash password) = some pw_hash := by
  unfold register
  simp only [with_body_isSome, with_value_isSome, register_check_isSome]
  constructor
  · intro h
    refine ⟨fun body hbody => ?_, ?_⟩
    · rw [has_strings_iff (List.cons_ne_nil _ _)]
      obtain ⟨u, hu, e, he, p, hp, _⟩ := h body hbody
      simp [hu, he, hp]
    · rintro username email password ⟨body, hbody, hu, he, hp, hfull⟩ hsel
      obtain ⟨u, hu', e, he', p, hp', hhash⟩ := h body hbody
      obtain rfl : u = username := Option.some.inj (hu'.symm.trans hu)
      obtain rfl : e = email := Option.some.inj (he'.symm.trans he)
      obtain rfl : p = password := Option.some.inj (hp'.symm.trans hp)
      exact hhash hfull hsel
  · rintro ⟨hstrings, hhash⟩ body hbody
    have hread := (has_strings_iff (List.cons_ne_nil _ _)).mp (hstrings body hbody)
    obtain ⟨u, hu⟩ := hread "username" (by simp)
    obtain ⟨e, he⟩ := hread "email" (by simp)
    obtain ⟨p, hp⟩ := hread "password" (by simp)
    refine ⟨u, hu, e, he, p, hp, fun hfull hsel => ?_⟩
    exact hhash u e p ⟨body, hbody, hu, he, hp, hfull⟩ hsel

theorem returns_login_insert (uid : UserId) : (login_insert services gen uid).Returns := by
  apply returns_await
  rintro (_ | _)
  · exact returns_database_error
  · exact returns_reply _

theorem login_isSome :
    ((login services gen req params).run answers).isSome ↔
      HasStrings services req ["username", "password"] := by
  unfold login
  apply reads_two
  intro body username password
  split
  · exact returns_reply _
  apply returns_await
  rintro (_ | _ | ⟨uid, pw_hash⟩)
  · exact returns_database_error
  · exact returns_reply _
  · apply returns_await
    intro ok
    cases ok with
    | false => exact returns_reply _
    | true => exact returns_login_insert uid

theorem returns_logout_delete (refresh_token : String) (uid : UserId) :
    (logout_delete refresh_token uid).Returns := by
  apply returns_await
  rintro (_ | _)
  · exact returns_database_error
  · exact returns_reply _

theorem logout_isSome :
    ((logout services req params).run answers).isSome ↔
      (SignedIn services req → HasStrings services req ["refresh_token"]) := by
  unfold logout SignedIn
  rw [with_user_isSome, forall_exists_index]
  apply forall₂_congr
  intro uid _
  apply reads_one
  intro body refresh_token
  split
  · exact returns_reply _
  · exact returns_logout_delete refresh_token uid

theorem returns_refresh_rotate (old_token : String) (uid : UserId) :
    (refresh_rotate services gen old_token uid).Returns := by
  apply returns_await
  rintro (_ | _)
  · exact returns_database_error
  · exact returns_reply _

theorem refresh_isSome :
    ((refresh services gen req params).run answers).isSome ↔
      HasStrings services req ["refresh_token"] := by
  unfold refresh
  apply reads_one
  intro body old_token
  split
  · exact returns_reply _
  apply returns_await
  rintro (_ | _ | uid)
  · exact returns_database_error
  · exact returns_reply _
  · exact returns_refresh_rotate old_token uid

end Auth

/-! ## The requests under /groups -/

section Groups

variable {services : Services} {gen : Generated} {req : Request} {params : PathParams}
  {answers : Answers GroupsCall GroupsCall.Answer}

theorem parse_members_isSome {items : List Json} :
    (∃ member_ids, parse_members items = some member_ids) ↔
      ∀ item ∈ items, ∃ s, item = .string s := by
  unfold parse_members
  rw [← Option.isSome_iff_exists, Option.isSome_map]
  induction items with
  | nil => simp
  | cons item items ih =>
    rw [List.forall_mem_cons, ← ih, List.mapM_cons]
    cases item with
    | string s => cases items.mapM get_string <;> simp [get_string]
    | _ => simp [get_string]

theorem returns_create_group_insert (group_id : ConvId) (name : String) (creator_id : UserId)
    (member_ids : List UserId) :
    (create_group_insert group_id name creator_id member_ids).Returns := by
  apply returns_await
  rintro (_ | created_at)
  · exact returns_database_error
  · exact returns_each (returns_reply _)

theorem create_group_isSome :
    ((create_group services gen req params).run answers).isSome ↔
      (SignedIn services req →
        HasStrings services req ["name"] ∧ HasMemberIds services req) := by
  unfold create_group SignedIn HasStrings HasMemberIds
  rw [with_user_isSome, forall_exists_index]
  apply forall₂_congr
  intro creator_id _
  rw [with_body_isSome, ← forall₂_and]
  apply forall₂_congr
  intro body _
  rw [has_strings_iff (List.cons_ne_nil _ _), with_value_isSome]
  simp only [List.mem_singleton, forall_eq]
  constructor
  · rintro ⟨name, hname, hrun⟩
    refine ⟨⟨name, hname⟩, fun hne => ?_⟩
    rw [hname, ne_eq, Option.some.injEq] at hne
    rw [if_neg hne, run_of_isSome] at hrun
    obtain ⟨member_ids, hids, _⟩ := hrun
    exact parse_members_isSome.mp ⟨member_ids, hids⟩
  · rintro ⟨⟨name, hname⟩, hitems⟩
    refine ⟨name, hname, ?_⟩
    split
    · exact returns_reply _ answers
    · rename_i hne
      rw [hname, ne_eq, Option.some.injEq] at hitems
      obtain ⟨member_ids, hids⟩ := parse_members_isSome.mpr (hitems hne)
      rw [run_of_isSome]
      exact ⟨member_ids, hids, returns_create_group_insert _ name creator_id member_ids answers⟩

theorem returns_get_group (hid : ∃ s, params.lookup "id" = some s) :
    (get_group services req params).Returns := by
  apply returns_with_user
  intro caller_id
  apply returns_with_id hid
  intro group_id
  apply returns_await
  rintro (_ | _ | group)
  · exact returns_database_error
  · exact returns_reply _
  · apply returns_await
    rintro (_ | rows)
    · exact returns_database_error
    · dsimp only
      split <;> exact returns_reply _

theorem returns_when_admin {group_id : ConvId} {caller_id : UserId} {k : GroupsCoroutine}
    (hk : k.Returns) : (when_admin group_id caller_id k).Returns := by
  apply returns_await
  rintro (_ | _ | role)
  · exact returns_database_error
  · exact returns_reply _
  · cases role with
    | admin => exact hk
    | member => exact returns_reply _

theorem returns_rename_group_update (group_id : ConvId) (name : String) :
    (rename_group_update group_id name).Returns := by
  apply returns_await
  rintro (_ | _)
  · exact returns_database_error
  · exact returns_reply _

theorem rename_group_isSome (hid : ∃ s, params.lookup "id" = some s) :
    ((rename_group services req params).run answers).isSome ↔
      (SignedIn services req → HasId params "id" → HasStrings services req ["name"]) := by
  unfold rename_group SignedIn HasId
  rw [with_user_isSome, forall_exists_index]
  apply forall₂_congr
  intro caller_id _
  rw [with_id_isSome hid, forall_exists_index]
  apply forall₂_congr
  intro group_id _
  apply reads_one
  intro body name
  split
  · exact returns_reply _
  · exact returns_when_admin (returns_rename_group_update group_id name)

theorem returns_add_member_insert (group_id : ConvId) (new_uid : UserId) :
    (add_member_insert group_id new_uid).Returns := by
  apply returns_await
  rintro (_ | _)
  · exact returns_database_error
  · exact returns_await fun _ => returns_reply _

theorem add_member_isSome (hid : ∃ s, params.lookup "id" = some s) :
    ((add_member services req params).run answers).isSome ↔
      (SignedIn services req → HasId params "id" → HasStrings services req ["user_id"]) := by
  unfold add_member SignedIn HasId
  rw [with_user_isSome, forall_exists_index]
  apply forall₂_congr
  intro caller_id _
  rw [with_id_isSome hid, forall_exists_index]
  apply forall₂_congr
  intro group_id _
  apply reads_one
  intro body uid_str
  split
  · exact returns_reply _
  apply returns_with_number
  intro new_uid
  exact returns_when_admin (returns_add_member_insert group_id new_uid)

theorem returns_remove_member_delete (group_id : ConvId) (target_uid : UserId) :
    (remove_member_delete group_id target_uid).Returns := by
  apply returns_await
  rintro (_ | _)
  · exact returns_database_error
  · exact returns_await fun _ => returns_reply _

theorem returns_remove_member (hid : ∃ s, params.lookup "id" = some s)
    (huid : ∃ s, params.lookup "uid" = some s) :
    (remove_member services req params).Returns := by
  apply returns_with_user
  intro caller_id
  apply returns_with_id hid
  intro group_id
  apply returns_with_id huid
  intro target_uid
  split
  · exact returns_remove_member_delete group_id target_uid
  apply returns_await
  rintro (_ | _ | role)
  · exact returns_reply _
  · exact returns_reply _
  · cases role with
    | admin => exact returns_remove_member_delete group_id target_uid
    | member => exact returns_reply _

end Groups

/-! ## The other requests -/

section Others

variable {services : Services} {gen : Generated} {blob_cfg : AzureBlobConfig} {req : Request}
  {params : PathParams} {answers : Answers Call Call.Answer}

theorem create_conversation_isSome :
    ((create_conversation services gen req params).run answers).isSome ↔
      (SignedIn services req → HasStrings services req []) := by
  unfold create_conversation SignedIn HasStrings
  rw [with_user_isSome, forall_exists_index]
  apply forall₂_congr
  intro creator_id _
  rw [with_body_isSome]
  apply forall₂_congr
  intro body _
  rw [run_of_isSome]
  constructor
  · rintro ⟨member_ids, hvalue, _⟩
    refine ⟨?_, by simp⟩
    cases body with
    | object members => exact ⟨members, rfl⟩
    | _ => cases hvalue
  · rintro ⟨⟨members, rfl⟩, _⟩
    refine ⟨_, rfl, ?_⟩
    split
    · split
      · exact returns_reply _ answers
      · rw [run_await]
        split <;> rfl
    · exact returns_reply _ answers

theorem returns_list_conversations : (list_conversations services req params).Returns := by
  apply returns_with_user
  intro user_id
  apply returns_await
  rintro (_ | rows)
  · exact returns_database_error
  · exact returns_await fun _ => returns_reply _

theorem returns_when_member {conv_id : ConvId} {user_id : UserId} {error : String}
    {k : HttpCoroutine} (hk : k.Returns) : (when_member conv_id user_id error k).Returns := by
  apply returns_await
  rintro (_ | _ | _)
  · exact returns_database_error
  · apply returns_await
    rintro (_ | _ | _)
    · exact returns_database_error
    · exact returns_reply _
    · exact hk
  · exact hk

theorem returns_with_conv_id {k : ConvId → HttpCoroutine} (hk : ∀ id, (k id).Returns) :
    (with_conv_id params k).Returns := by
  unfold with_conv_id
  split
  · exact returns_reply _
  · exact returns_with_number hk

theorem returns_get_messages (base64_encode : Bytes → String) :
    (get_messages services base64_encode req params).Returns := by
  apply returns_with_user
  intro user_id
  apply returns_with_conv_id
  intro conv_id
  apply returns_when_member
  exact returns_await fun _ => returns_reply _

theorem returns_fan_out_delete (message : OutboundMessage) {k : HttpCoroutine} (hk : k.Returns)
    (members : List UserId) : (fan_out_delete message k members).Returns := by
  induction members with
  | nil => exact hk
  | cons member_id members ih => exact returns_await fun _ => returns_await fun _ => ih

theorem returns_with_members {conv_id : ConvId} {k : List UserId → HttpCoroutine}
    (hk : ∀ members, (k members).Returns) : (with_members conv_id k).Returns := by
  apply returns_await
  rintro (_ | _ | ⟨member_id, members⟩)
  · exact returns_database_error
  · apply returns_await
    rintro (_ | members)
    · exact returns_database_error
    · exact hk members
  · exact hk _

theorem returns_delete_message (hid : ∃ s, params.lookup "msg_id" = some s) :
    (delete_message services gen req params).Returns := by
  apply returns_with_user
  intro caller_id
  apply returns_with_id hid
  intro msg_id
  dsimp only
  split
  · exact returns_reply _
  apply returns_with_number
  intro conv_id
  apply returns_with_members
  intro members
  split
  · exact returns_await fun _ => returns_fan_out_delete _ (returns_reply _) members
  · exact returns_reply _

theorem upload_file_isSome {filename file_data : Bytes} :
    ((upload_file gen filename file_data).run answers).isSome ↔
      (let out_name := octets (generate_uuid gen.draws) ++ extract_extension filename
       answers 0 (.upload out_name (content_type_for out_name) file_data) = "" →
         is_utf8 (extract_extension filename)) := by
  unfold upload_file
  dsimp only
  rw [run_await]
  split
  · rename_i herror
    simp [reply, herror]
  · rename_i hok
    rw [not_not] at hok
    rw [run_of_isSome, ← url_isSome gen.draws, Option.isSome_iff_exists]
    simp [reply, hok]

theorem upload_isSome :
    ((upload services gen blob_cfg req params).run answers).isSome ↔
      (SignedIn services req → blob_cfg.missing = false →
        HasTextExtension gen.draws req answers) := by
  unfold upload SignedIn HasTextExtension
  rw [with_user_isSome, forall_exists_index]
  apply forall₂_congr
  intro user _
  cases blob_cfg.missing with
  | true => simp [reply]
  | false =>
    rw [if_neg Bool.false_ne_true, eq_self, true_implies]
    cases boundary_of (octets req.content_type) with
    | none => simp [reply]
    | some boundary =>
      dsimp only
      cases hparse : parse_multipart req.body boundary with
      | none =>
        constructor
        · rintro _ _ filename file_data ⟨⟩ hsome
          rw [hparse] at hsome
          cases hsome
        · intro _
          exact returns_reply _ answers
      | some part =>
        obtain ⟨filename, file_data⟩ := part
        dsimp only
        rw [upload_file_isSome]
        constructor
        · rintro htext _ filename' file_data' ⟨⟩ hsome
          rw [hparse, Option.some.injEq, Prod.mk.injEq] at hsome
          obtain ⟨rfl, rfl⟩ := hsome
          exact htext
        · intro htext
          exact htext boundary filename file_data rfl hparse

theorem returns_get_file (hid : ∃ s, params.lookup "uuid" = some s) :
    (get_file services blob_cfg req params).Returns := by
  obtain ⟨uuid, huuid⟩ := hid
  apply returns_with_user
  intro user
  split
  · exact returns_reply _
  rw [huuid]
  simp only [Coroutine.of]
  split
  · exact returns_reply _
  · split <;> exact returns_reply _

theorem returns_search_users : (search_users services req params).Returns := by
  apply returns_with_user
  intro user
  dsimp only
  split
  · exact returns_reply _
  apply returns_await
  rintro (_ | rows)
  · exact returns_database_error
  · exact returns_reply _

theorem returns_get_user (hid : ∃ s, params.lookup "id" = some s) :
    (get_user req params).Returns := by
  apply returns_with_id hid
  intro uid
  apply returns_await
  rintro (_ | _ | row)
  · exact returns_database_error
  · exact returns_reply _
  · exact returns_reply _

theorem returns_get_presence (hid : ∃ s, params.lookup "id" = some s) :
    (get_presence services req params).Returns := by
  apply returns_with_user
  intro user
  apply returns_with_id hid
  intro uid
  apply returns_await
  rintro (_ | server_id)
  · apply returns_await
    rintro (_ | ts)
    · exact returns_await fun _ => returns_reply _
    · exact returns_reply _
  · exact returns_reply _

theorem returns_update_user (hid : ∃ s, params.lookup "id" = some s) :
    (update_user services req params).Returns := by
  apply returns_with_user
  intro user
  apply returns_with_id hid
  intro uid
  split
  · exact returns_reply _
  apply returns_with_body
  intro body
  apply returns_await
  rintro (_ | _)
  · exact returns_database_error
  · exact returns_reply _

theorem returns_relay_read (message : OutboundMessage) {k : HttpCoroutine} (hk : k.Returns)
    (members : List UserId) : (relay_read message k members).Returns := by
  induction members with
  | nil => exact hk
  | cons member_id members ih =>
    apply returns_await
    rintro (_ | _)
    · exact ih
    · exact returns_await fun _ => ih

theorem returns_relay_to_others {conv_id : ConvId} {user_id : UserId} {k : HttpCoroutine}
    (hk : k.Returns) : (relay_to_others conv_id user_id k).Returns := by
  apply returns_await
  rintro (_ | rows)
  · exact hk
  · dsimp only
    split
    · apply returns_await
      rintro (_ | rows)
      · exact hk
      · exact returns_relay_read _ hk _
    · exact returns_relay_read _ hk _

theorem returns_read_conversation : (read_conversation services req params).Returns := by
  apply returns_with_user
  intro user_id
  apply returns_with_conv_id
  intro conv_id
  apply returns_when_member
  apply returns_await
  intro _
  apply returns_await
  intro _
  exact returns_relay_to_others (returns_reply _)

theorem register_push_isSome :
    ((register_push services req params).run answers).isSome ↔
      (SignedIn services req → HasStrings services req ["token", "platform"]) := by
  unfold register_push SignedIn
  rw [with_user_isSome, forall_exists_index]
  apply forall₂_congr
  intro user_id _
  apply reads_two
  intro body token platform
  split
  · exact returns_reply _
  · exact returns_await fun _ => returns_reply _

theorem unregister_push_isSome :
    ((unregister_push services req params).run answers).isSome ↔
      (SignedIn services req → HasStrings services req ["token"]) := by
  unfold unregister_push SignedIn
  rw [with_user_isSome, forall_exists_index]
  apply forall₂_congr
  intro user_id _
  apply reads_one
  intro body token
  split
  · exact returns_reply _
  · exact returns_await fun _ => returns_reply _

end Others

/-! ## The law -/

section Law

variable {setup : Setup} {gen : Generated} {req : Request} {params : PathParams}
  {answers : Answers Call Call.Answer}

/-- The names that the path of a handler binds. -/
def path_names : Endpoint → List String
  | .get_messages | .get_group | .rename_group | .add_member | .get_user | .get_presence
  | .update_user | .read_conversation => ["id"]
  | .remove_member => ["id", "uid"]
  | .delete_message => ["msg_id"]
  | .get_file => ["uuid"]
  | _ => []

theorem routes_bind : ∀ route ∈ routes, ∀ name ∈ path_names route.handler,
    ∃ p ∈ split_path '/' [] route.path.toList, is_param p ∧ param_name p = name := by
  decide

/-- A handler is called with the parameters of its path. -/
theorem found_binds {endpoint : Endpoint} (h : find_route routes req = some (endpoint, params)) :
    ∀ name ∈ path_names endpoint, ∃ s, params.lookup name = some s := by
  obtain ⟨route, hroute, _, rfl, hmatch⟩ := find_route_eq_some h
  intro name hname
  exact match_path_binds hmatch (routes_bind route hroute name hname)

/-- A handler that is called returns exactly when its request is readable. -/
theorem serve_isSome {endpoint : Endpoint}
    (hbinds : ∀ name ∈ path_names endpoint, ∃ s, params.lookup name = some s) :
    ((serve setup gen endpoint req params).run answers).isSome ↔
      Readable setup gen answers req params endpoint := by
  cases endpoint with
  | health => exact iff_of_true (returns_reply _ answers) trivial
  | register =>
    change ((auth _ req params).run answers).isSome ↔ _
    rw [auth, run_lift]
    exact register_isSome
  | login =>
    change ((auth _ req params).run answers).isSome ↔ _
    rw [auth, run_lift]
    exact login_isSome
  | logout =>
    change ((auth _ req params).run answers).isSome ↔ _
    rw [auth, run_lift]
    exact logout_isSome
  | refresh =>
    change ((auth _ req params).run answers).isSome ↔ _
    rw [auth, run_lift]
    exact refresh_isSome
  | create_conversation =>
    change ((create_conversation _ _ req params).run answers).isSome ↔ _
    exact create_conversation_isSome
  | list_conversations =>
    change ((list_conversations _ req params).run answers).isSome ↔ True
    exact iff_of_true (returns_list_conversations answers) trivial
  | get_messages => exact iff_of_true (returns_get_messages _ answers) trivial
  | create_group =>
    change ((groups _ req params).run answers).isSome ↔ _
    rw [groups, run_lift]
    exact create_group_isSome
  | get_group =>
    exact iff_of_true (returns_lift (returns_get_group (hbinds "id" (by simp [path_names]))) _)
      trivial
  | rename_group =>
    change ((groups _ req params).run answers).isSome ↔ _
    rw [groups, run_lift]
    exact rename_group_isSome (hbinds "id" (by simp [path_names]))
  | add_member =>
    change ((groups _ req params).run answers).isSome ↔ _
    rw [groups, run_lift]
    exact add_member_isSome (hbinds "id" (by simp [path_names]))
  | remove_member =>
    exact iff_of_true (returns_lift (returns_remove_member
      (hbinds "id" (by simp [path_names])) (hbinds "uid" (by simp [path_names]))) _) trivial
  | delete_message =>
    exact iff_of_true (returns_delete_message (hbinds "msg_id" (by simp [path_names])) answers)
      trivial
  | upload =>
    change ((upload _ _ _ req params).run answers).isSome ↔ _
    exact upload_isSome
  | get_file =>
    exact iff_of_true (returns_get_file (hbinds "uuid" (by simp [path_names])) answers) trivial
  | search_users =>
    change ((search_users _ req params).run answers).isSome ↔ True
    exact iff_of_true (returns_search_users answers) trivial
  | get_user =>
    change ((get_user req params).run answers).isSome ↔ True
    exact iff_of_true (returns_get_user (hbinds "id" (by simp [path_names])) answers) trivial
  | get_presence =>
    exact iff_of_true (returns_get_presence (hbinds "id" (by simp [path_names])) answers) trivial
  | update_user =>
    exact iff_of_true (returns_update_user (hbinds "id" (by simp [path_names])) answers) trivial
  | read_conversation => exact iff_of_true (returns_read_conversation answers) trivial
  | register_push =>
    change ((register_push _ req params).run answers).isSome ↔ _
    exact register_push_isSome
  | unregister_push =>
    change ((unregister_push _ req params).run answers).isSome ↔ _
    exact unregister_push_isSome
  | openapi => exact iff_of_true (returns_reply _ answers) trivial
  | docs => exact iff_of_true (returns_reply _ answers) trivial

/-- No route takes OPTIONS. -/
theorem find_route_options (h : req.method = .options) : find_route routes req = none := by
  rw [Option.eq_none_iff_forall_not_mem]
  rintro ⟨endpoint, params⟩ hfound
  obtain ⟨route, hroute, hmethod, _⟩ := find_route_eq_some hfound
  have hall : ∀ route ∈ routes, route.method ≠ .options := by decide
  exact hall route hroute (hmethod.trans h)

/-- A request is answered with exactly one response when the handler that it is routed to finds
the members that it reads to be strings, can hash the password and can print the name of the
file, and only then. -/
theorem a_request_is_answered_iff_it_is_readable (setup : Setup) (gen : Generated)
    (request_id : String) (answers : Answers Call Call.Answer) {req : Request}
    (hreq : req.upgrades = false) :
    Answered setup gen request_id answers req ↔
      ∀ endpoint params, find_route routes req = some (endpoint, params) →
        Readable setup gen answers req params endpoint := by
  unfold Answered
  rw [handle_connection_run hreq]
  by_cases hoptions : req.method = .options
  · rw [if_pos hoptions, find_route_options hoptions]
    simp
  rw [if_neg hoptions]
  unfold respond
  cases hfound : find_route routes req with
  | none => simp
  | some found =>
    obtain ⟨endpoint, params⟩ := found
    have hserve : ((serve setup gen endpoint req params).run answers).isSome ↔
        Readable setup gen answers req params endpoint := serve_isSome (found_binds hfound)
    dsimp only
    cases hrun : (serve setup gen endpoint req params).run answers with
    | none =>
      rw [hrun] at hserve
      constructor
      · intro h
        cases h
      · intro hall
        cases hserve.mpr (hall endpoint params rfl)
    | some res =>
      rw [hrun] at hserve
      constructor
      · rintro _ _ _ ⟨⟩
        exact hserve.mp rfl
      · intro _
        rfl

/-- Every call that can throw throws. -/
def failing : Answers Call Call.Answer := fun _ call =>
  match call with
  | .auth call => match call with
    | .verify _ _ => false
    | .select_user _ _ | .hash _ | .insert_user _ _ _ _ | .select_credentials _
    | .insert_refresh_token _ _ | .delete_refresh_token _ _ | .select_refresh_token _
    | .rotate_refresh_token _ _ _ => none
  | .groups call => match call with
    | .sadd_group_member _ _ | .srem_group_member _ _ => ()
    | .insert_group _ _ _ _ | .select_group _ | .select_members _ | .select_role _ _
    | .update_name _ _ | .insert_member _ _ | .delete_member _ _ => none
  | .hgetall_unread _ | .select_history _ _ _ => []
  | .lookup _ => false
  | .upload _ _ _ => "unknown exception during Azure upload"
  | .delete_message _ _ | .post _ _ | .lpush _ _ | .hdel_unread _ _ | .mark_read _ _
  | .register_token _ _ _ | .unregister_token _ _ => ()
  | .insert_conversation _ _ | .select_conversations _ | .is_conv_member _ _
  | .is_group_member _ _ | .select_conv_members _ | .select_group_members _ | .search_users _ _
  | .select_user _ | .get_presence _ | .get_last_seen _ | .select_last_seen _
  | .update_user _ _ _ => none

/-- A server whose parser knows two texts. -/
def small_setup : Setup where
  services :=
    { verify := fun _ => none
      issue := fun _ => ""
      parse := fun body =>
        if body = octets "[]" then some (.array [])
        else if body = octets "\x7b\"refresh_token\":\"t\"\x7d" then
          some (.object [("refresh_token", .string "t")])
        else none }
  blob_cfg := { account := "", key := "", container := "", generate_sas := fun _ _ => none }
  base64_encode := fun _ => ""
  spec_json := ""
  kSwaggerHtml := ""

def refresh_request (body : String) : Request :=
  { method := .post, target := "/auth/refresh", body := octets body }

/-- A refresh is answered also when the database throws. -/
theorem a_refresh_is_answered :
    Answered small_setup {} "" failing (refresh_request "\x7b\"refresh_token\":\"t\"\x7d") := by
  apply (a_request_is_answered_iff_it_is_readable small_setup {} "" failing rfl).mpr
  intro endpoint params hfound
  have hroute : find_route routes (refresh_request "\x7b\"refresh_token\":\"t\"\x7d") =
      some (.refresh, []) := by decide
  rw [hroute] at hfound
  cases hfound
  intro body hbody
  obtain rfl : .object [("refresh_token", .string "t")] = body := Option.some.inj hbody
  rw [has_strings_iff (List.cons_ne_nil _ _)]
  simp [Json.value_string]

/-- A body that is an array gets no answer. -/
theorem an_array_gets_no_answer :
    ¬ Answered small_setup {} "" failing (refresh_request "[]") := by decide

end Law

end loomic.http_answers
