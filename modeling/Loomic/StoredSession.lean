-- The login session that the client keeps (session.ts). It stands as a JSON text in one of two
-- stores, in localStorage when it is to outlive the window and in sessionStorage when not.
-- Whatever the order of logins, refreshes, reads and logouts, the stores hold the current
-- login, and after a logout nothing.
import Loomic.Lib.JsonTexts

open json_texts

namespace loomic.stored_session

/-! ## Sessions -/

/-- The properties of an object in their order. A property that is undefined is not there. -/
abbrev Members := List (String × Value)

def is_zero (n : Number) : Bool :=
  (n.text.takeWhile fun c => c ≠ 'e' ∧ c ≠ 'E').all fun c => c ∈ ['0', '-', '.']

/-- What counts as true. -/
def truthy : Value → Bool
  | .null => false
  | .bool b => b
  | .number n => !is_zero n
  | .string s => s ≠ ""
  | .array _ | .object _ => true

/-- `buildClientSessionId` gives a UUID, or a text with the time and a random number. -/
abbrev ClientId := { id : String // id ≠ "" }

/-- The subject of a token, which is null when the token cannot be read. -/
structure Subject where
  value : Value
  valid : value.Valid

variable (decode_jwt_subject : String → Subject)

/-- `none` is the exception of a token that is no string. -/
def subject_of : Option Value → Option Value
  | some (.string token) => some (decode_jwt_subject token).value
  | _ => none

/-- `session.client_session_id || buildClientSessionId()`. -/
def client_session_id (built : ClientId) (session : Members) : Value :=
  match session.lookup "client_session_id" with
  | some id => if truthy id then id else .string built
  | none => .string built

/-- `session.user_id ?? decodeJwtSubject(session.access_token)`. -/
def user_id (session : Members) : Option Value :=
  match session.lookup "user_id" with
  | none | some .null => subject_of decode_jwt_subject (session.lookup "access_token")
  | some id => some id

def normalize_session (built : ClientId) (session : Members) : Option Members :=
  (user_id decode_jwt_subject session).map fun id =>
    assign (assign session "client_session_id" (client_session_id built session)) "user_id" id

/-! ## The stores -/

/-- What the two stores hold under the key `loomic.session`. -/
structure Stores where
  session_storage : Option String := none
  local_storage : Option String := none
  deriving DecidableEq

def text (session : Members) : String := String.ofList (stringify (.object session))

/-- Nothing but an object can be normalized: another value has no token, and null no properties. -/
def members_of : Value → Option Members
  | .object members => some members
  | _ => none

/-- The text is set in one store and removed from the other. -/
def put (persist : Bool) (serialized : String) : Stores :=
  if persist then { local_storage := some serialized } else { session_storage := some serialized }

/-- A text that cannot be read is removed from both stores, and one that is not normalized is
written again. -/
def read_stored_session (built : ClientId) (st : Stores) : Stores × Option Members :=
  match st.session_storage <|> st.local_storage with
  | none => (st, none)
  | some raw =>
    if raw = "" then (st, none)
    else
      match ((parse raw.toList).bind members_of).bind
          (normalize_session decode_jwt_subject built) with
      | none => ({}, none)
      | some parsed =>
        let rewrite (stored : Option String) :=
          if stored = some raw ∧ raw ≠ text parsed then some (text parsed) else stored
        ({ session_storage := rewrite st.session_storage
           local_storage := rewrite st.local_storage }, some parsed)

def save_stored_session (built : ClientId) (session : Members) (persist : Bool) (st : Stores) :
    Stores :=
  match normalize_session decode_jwt_subject built session with
  | none => st
  | some session => put persist (text session)

structure Tokens where
  access_token : String
  refresh_token : String
  token_type : Option String

/-- A property of an object literal. -/
def set (session : Members) (key : String) : Option Value → Members
  | none => session
  | some v => assign session key v

/-- The session with the new tokens. -/
def with_tokens (tokens : Tokens) (existing : Members) : Members :=
  let next := set existing "access_token" (some (.string tokens.access_token))
  let next := set next "refresh_token" (some (.string tokens.refresh_token))
  let next := set next "token_type"
    ((tokens.token_type.map .string).or (existing.lookup "token_type"))
  let next := set next "persisted" (existing.lookup "persisted")
  let next := set next "client_session_id" (existing.lookup "client_session_id")
  set next "user_id" (some (decode_jwt_subject tokens.access_token).value)

/-- The ids are the ones that would be built while the session is read, and while the next one
is normalized. -/
def update_stored_session_tokens (built built' : ClientId) (tokens : Tokens) (st : Stores) :
    Stores × Option Members :=
  match read_stored_session decode_jwt_subject built st with
  | (st, none) => (st, none)
  | (st, some existing) =>
    match normalize_session decode_jwt_subject built'
        (with_tokens decode_jwt_subject tokens existing) with
    | none => (st, none)
    | some next =>
      (put (((next.lookup "persisted").map truthy).getD false) (text next), some next)

def clear_stored_session : Stores := {}

/-! ## Runs -/

/-- A session as it is saved: an object with tokens and a flag. The ids may be missing. -/
structure Session where
  members : Members
  valid : Value.Valid (.object members)
  access_token : String
  refresh_token : String
  token_type : String
  persisted : Bool
  has_access_token : members.lookup "access_token" = some (.string access_token)
  has_refresh_token : members.lookup "refresh_token" = some (.string refresh_token)
  has_token_type : members.lookup "token_type" = some (.string token_type)
  has_persisted : members.lookup "persisted" = some (.bool persisted)

/-- The calls of the client. The login page saves a session with its own flag. -/
inductive Operation
  | save (built : ClientId) (session : Session)
  | update (built built' : ClientId) (tokens : Tokens)
  | read (built : ClientId)
  | clear

def step (st : Stores) : Operation → Stores
  | .save built session =>
    save_stored_session decode_jwt_subject built session.members session.persisted st
  | .update built built' tokens =>
    (update_stored_session_tokens decode_jwt_subject built built' tokens st).1
  | .read built => (read_stored_session decode_jwt_subject built st).1
  | .clear => clear_stored_session

def run (ops : List Operation) : Stores := ops.foldl (step decode_jwt_subject) {}

/-! ## The current login -/

/-- What is to be known of a session. -/
structure Login where
  access_token : String
  refresh_token : String
  token_type : String
  persisted : Bool
  client_session_id : Value

def Login.with_tokens (login : Login) (tokens : Tokens) : Login :=
  { login with
    access_token := tokens.access_token
    refresh_token := tokens.refresh_token
    token_type := tokens.token_type.getD login.token_type }

/-- The login of a session that is saved. -/
def Session.login (built : ClientId) (session : Session) : Login where
  access_token := session.access_token
  refresh_token := session.refresh_token
  token_type := session.token_type
  persisted := session.persisted
  client_session_id := client_session_id built session.members

def follow (login : Option Login) : Operation → Option Login
  | .save built session => some (session.login built)
  | .update _ _ tokens => login.map fun login => login.with_tokens tokens
  | .read _ => login
  | .clear => none

/-- The latest save since the last clear, with the tokens of the updates behind it. -/
def current (ops : List Operation) : Option Login := ops.foldl follow none

/-- The object is a session of the login. -/
structure Shows (session : Members) (login : Login) : Prop where
  access_token : session.lookup "access_token" = some (.string login.access_token)
  refresh_token : session.lookup "refresh_token" = some (.string login.refresh_token)
  token_type : session.lookup "token_type" = some (.string login.token_type)
  persisted : session.lookup "persisted" = some (.bool login.persisted)
  client_session_id : session.lookup "client_session_id" = some login.client_session_id

/-- What a call returns shows the login, and is null when there is none. -/
def Returns (result : Option Members) : Option Login → Prop
  | none => result = none
  | some login => ∃ session, result = some session ∧ Shows session login

/-- What is wanted after a run. -/
structure Consistent (ops : List Operation) : Prop where
  one_store : ¬ ((run decode_jwt_subject ops).session_storage.isSome = true ∧
    (run decode_jwt_subject ops).local_storage.isSome = true)
  in_local_storage : (run decode_jwt_subject ops).local_storage.isSome = true ↔
    ∃ login, current ops = some login ∧ login.persisted = true
  in_session_storage : (run decode_jwt_subject ops).session_storage.isSome = true ↔
    ∃ login, current ops = some login ∧ login.persisted = false
  read : ∀ built, ∃ result,
    read_stored_session decode_jwt_subject built (run decode_jwt_subject ops) =
      (run decode_jwt_subject ops, result) ∧ Returns result (current ops)
  updated : ∀ built built' tokens, Returns
    (update_stored_session_tokens decode_jwt_subject built built' tokens
      (run decode_jwt_subject ops)).2
    ((current ops).map fun login => login.with_tokens tokens)
  /-- After a clear nothing is read or written until the next save. -/
  cleared : ∀ before after, ops = before ++ .clear :: after →
    (∀ built session, .save built session ∉ after) →
      run decode_jwt_subject ops = {} ∧
      (∀ built, read_stored_session decode_jwt_subject built (run decode_jwt_subject ops) =
        ({}, none)) ∧
      ∀ built built' tokens,
        update_stored_session_tokens decode_jwt_subject built built' tokens
          (run decode_jwt_subject ops) = ({}, none)

/-! ## Normalizing -/

/-- A session that normalizing leaves as it is. -/
structure Normal (session : Members) : Prop where
  valid : Value.Valid (.object session)
  client_session_id : ∃ id, session.lookup "client_session_id" = some id ∧ truthy id = true
  has_user_id : ∃ id, session.lookup "user_id" = some id ∧
    user_id decode_jwt_subject session = some id

variable {decode_jwt_subject}

theorem lookup_valid {session : Members} {key : String} {v : Value}
    (hvalid : Value.Valid (.object session)) (h : session.lookup key = some v) : v.Valid := by
  obtain ⟨⟩ | ⟨⟩ | ⟨⟩ | ⟨⟩ | ⟨⟩ | ⟨-, hmembers⟩ := hvalid
  obtain ⟨before, after, hsplit, -⟩ := List.lookup_eq_some_iff.1 h
  exact hmembers (key, v) (by simp [hsplit])

theorem normalize_normal {session : Members} (h : Normal decode_jwt_subject session)
    (built : ClientId) :
    normalize_session decode_jwt_subject built session = some session := by
  obtain ⟨id, hid, htruthy⟩ := h.client_session_id
  obtain ⟨user, hlookup, huser⟩ := h.has_user_id
  have hkeep : client_session_id built session = id := by
    simp [client_session_id, hid, htruthy]
  rw [normalize_session, huser, Option.map_some, hkeep, assign_same hid, assign_same hlookup]

theorem truthy_client_session_id (built : ClientId) (session : Members) :
    truthy (client_session_id built session) = true := by
  have hbuilt : truthy (.string built) = true := by simpa [truthy] using built.property
  unfold client_session_id
  split
  · split
    · assumption
    · exact hbuilt
  · exact hbuilt

/-- The id of the user is there already, or it is the subject of the token. -/
theorem user_id_cases {session : Members} {token : String}
    (h : session.lookup "access_token" = some (.string token)) :
    (∃ id, session.lookup "user_id" = some id ∧ id ≠ .null ∧
      user_id decode_jwt_subject session = some id) ∨
    user_id decode_jwt_subject session = some (decode_jwt_subject token).value := by
  unfold user_id
  split
  · exact .inr (by rw [h, subject_of])
  · exact .inr (by rw [h, subject_of])
  · rename_i id hnull hlookup
    exact .inl ⟨id, hlookup, hnull, rfl⟩

/-- What normalizing makes of a session with a token. -/
theorem normalize_session_eq {session : Members} {token : String} (built : ClientId)
    (hvalid : Value.Valid (.object session))
    (h : session.lookup "access_token" = some (.string token)) :
    ∃ next, normalize_session decode_jwt_subject built session = some next ∧
      Normal decode_jwt_subject next ∧
      next.lookup "client_session_id" = some (client_session_id built session) ∧
      ∀ key, key ≠ "client_session_id" → key ≠ "user_id" →
        next.lookup key = session.lookup key := by
  have hid : (client_session_id built session).Valid := by
    unfold client_session_id
    split
    · rename_i hlookup
      split
      · exact lookup_valid hvalid hlookup
      · exact .string _
    · exact .string _
  obtain ⟨user, huser, hvaliduser, hnull⟩ : ∃ user,
      user_id decode_jwt_subject session = some user ∧ user.Valid ∧
        (user = .null → (decode_jwt_subject token).value = .null) := by
    rcases @user_id_cases decode_jwt_subject _ _ h with
      ⟨id, hlookup, hnull, huser⟩ | huser
    · exact ⟨id, huser, lookup_valid hvalid hlookup, fun heq => absurd heq hnull⟩
    · exact ⟨_, huser, (decode_jwt_subject token).valid, fun heq => heq⟩
  have hother : ∀ key, key ≠ "client_session_id" → key ≠ "user_id" →
      (assign (assign session "client_session_id" (client_session_id built session)) "user_id"
        user).lookup key = session.lookup key := by
    intro key hclient hkey
    rw [lookup_assign_ne _ hkey, lookup_assign_ne _ hclient]
  have hclient : (assign (assign session "client_session_id" (client_session_id built session))
      "user_id" user).lookup "client_session_id" = some (client_session_id built session) := by
    rw [lookup_assign_ne _ (by decide), lookup_assign_self]
  refine ⟨_, by rw [normalize_session, huser, Option.map_some], ?_, hclient, hother⟩
  refine ⟨valid_assign _ (valid_assign _ hvalid hid) hvaliduser,
    ⟨_, hclient, truthy_client_session_id built session⟩, user, lookup_assign_self _ _ _, ?_⟩
  have haccess := (hother "access_token" (by decide) (by decide)).trans h
  unfold user_id
  rw [lookup_assign_self, haccess]
  cases user with
  | null => exact congrArg some (hnull rfl)
  | _ => simp

/-! ## What is kept -/

variable (decode_jwt_subject)

/-- The stores hold the login, in the one store where it belongs. -/
def Holds (st : Stores) : Option Login → Prop
  | none => st = {}
  | some login => ∃ session, Normal decode_jwt_subject session ∧ Shows session login ∧
      st = put login.persisted (text session)

variable {decode_jwt_subject}

theorem text_ne_empty (session : Members) : text session ≠ "" := by
  obtain ⟨c, hc, -⟩ := stringify_head (.object session)
  intro h
  have hnil := String.toList_eq_nil_iff.2 h
  rw [text, String.toList_ofList] at hnil
  simp [hnil] at hc

/-- A normal session is read as it is, and is not written again. -/
theorem read_put {session : Members} (h : Normal decode_jwt_subject session) (built : ClientId)
    (persist : Bool) :
    read_stored_session decode_jwt_subject built (put persist (text session)) =
      (put persist (text session), some session) := by
  have hstored : ((put persist (text session)).session_storage <|>
      (put persist (text session)).local_storage) = some (text session) := by
    cases persist <;> simp [put]
  have hparse : ((parse (text session).toList).bind members_of).bind
      (normalize_session decode_jwt_subject built) = some session := by
    rw [text, String.toList_ofList, parse_stringify h.valid, Option.bind_some, members_of,
      Option.bind_some, normalize_normal h]
  rw [read_stored_session, hstored]
  simp only [text_ne_empty, if_false, hparse]
  simp

theorem read_nothing (built : ClientId) :
    read_stored_session decode_jwt_subject built {} = ({}, none) := by
  simp [read_stored_session]

theorem holds_save (built : ClientId) (session : Session) (st : Stores) :
    Holds decode_jwt_subject
      (save_stored_session decode_jwt_subject built session.members session.persisted st)
      (some (session.login built)) := by
  obtain ⟨next, hnext, hnormal, hclient, hother⟩ :=
    @normalize_session_eq decode_jwt_subject _ _ built session.valid session.has_access_token
  refine ⟨next, hnormal, ⟨?_, ?_, ?_, ?_, hclient⟩, ?_⟩
  · exact (hother _ (by decide) (by decide)).trans session.has_access_token
  · exact (hother _ (by decide) (by decide)).trans session.has_refresh_token
  · exact (hother _ (by decide) (by decide)).trans session.has_token_type
  · exact (hother _ (by decide) (by decide)).trans session.has_persisted
  · rw [save_stored_session, hnext]
    simp [Session.login]

/-- The tokens are set, and the rest stays as it is. -/
theorem shows_with_tokens {session : Members} {login : Login} (tokens : Tokens)
    (h : Shows session login) :
    Shows (with_tokens decode_jwt_subject tokens session) (login.with_tokens tokens) := by
  have htype : (tokens.token_type.map Value.string).or (session.lookup "token_type") =
      some (.string (tokens.token_type.getD login.token_type)) := by
    cases tokens.token_type <;> simp [h.token_type]
  refine ⟨?_, ?_, ?_, ?_, ?_⟩ <;>
    simp [with_tokens, set, Login.with_tokens, htype, h.persisted, h.client_session_id,
      lookup_assign_ne]

theorem valid_set {session : Members} (key : String) {v : Option Value}
    (h : Value.Valid (.object session)) (hv : ∀ w, v = some w → w.Valid) :
    Value.Valid (.object (set session key v)) := by
  cases v with
  | none => exact h
  | some w => exact valid_assign key h (hv w rfl)

theorem valid_with_tokens {session : Members} (tokens : Tokens)
    (h : Value.Valid (.object session)) :
    Value.Valid (.object (with_tokens decode_jwt_subject tokens session)) := by
  have htype : ∀ v, (tokens.token_type.map Value.string).or (session.lookup "token_type") =
      some v → v.Valid := by
    cases tokens.token_type with
    | none => exact fun v hv => lookup_valid h (by simpa using hv)
    | some type =>
      rintro v hv
      obtain rfl : Value.string type = v := by simpa using hv
      exact .string type
  have hkept : ∀ key v, session.lookup key = some v → v.Valid := fun key v => lookup_valid h
  unfold with_tokens
  refine valid_set _ (valid_set _ (valid_set _ (valid_set _ (valid_set _ (valid_set _ h ?_) ?_)
    htype) (hkept _)) (hkept _)) ?_
  · rintro v ⟨⟩
    exact .string _
  · rintro v ⟨⟩
    exact .string _
  · rintro v ⟨⟩
    exact (decode_jwt_subject tokens.access_token).valid

/-- An update of a session that is kept. -/
theorem update_put {session : Members} {login : Login} (built built' : ClientId) (tokens : Tokens)
    (hnormal : Normal decode_jwt_subject session) (hshows : Shows session login) :
    ∃ next, update_stored_session_tokens decode_jwt_subject built built' tokens
        (put login.persisted (text session)) = (put login.persisted (text next), some next) ∧
      Normal decode_jwt_subject next ∧ Shows next (login.with_tokens tokens) := by
  have htokens := @shows_with_tokens decode_jwt_subject _ _ tokens hshows
  obtain ⟨next, hnext, hnormal', hclient, hother⟩ := normalize_session_eq built'
    (valid_with_tokens tokens hnormal.valid) htokens.access_token
  have hkeep : client_session_id built' (with_tokens decode_jwt_subject tokens session) =
      login.client_session_id := by
    obtain ⟨id, hid, htruthy⟩ := hnormal.client_session_id
    obtain rfl : login.client_session_id = id := by
      rw [hshows.client_session_id] at hid
      exact Option.some.inj hid
    have hlookup : (with_tokens decode_jwt_subject tokens session).lookup "client_session_id" =
        some login.client_session_id := htokens.client_session_id
    simp [client_session_id, hlookup, htruthy]
  have hnext' : Shows next (login.with_tokens tokens) := by
    refine ⟨?_, ?_, ?_, ?_, ?_⟩
    · exact (hother _ (by decide) (by decide)).trans htokens.access_token
    · exact (hother _ (by decide) (by decide)).trans htokens.refresh_token
    · exact (hother _ (by decide) (by decide)).trans htokens.token_type
    · exact (hother _ (by decide) (by decide)).trans htokens.persisted
    · rw [hclient, hkeep]
      simp [Login.with_tokens]
  refine ⟨next, ?_, hnormal', hnext'⟩
  rw [update_stored_session_tokens, read_put hnormal]
  simp only [hnext, hnext'.persisted]
  simp [truthy, Login.with_tokens]

theorem update_nothing (built built' : ClientId) (tokens : Tokens) :
    update_stored_session_tokens decode_jwt_subject built built' tokens {} = ({}, none) := by
  rw [update_stored_session_tokens, read_nothing]

/-- One call. -/
theorem holds_step {st : Stores} {login : Option Login} (h : Holds decode_jwt_subject st login)
    (op : Operation) :
    Holds decode_jwt_subject (step decode_jwt_subject st op) (follow login op) := by
  cases op with
  | save built session => exact holds_save built session st
  | update built built' tokens =>
    cases login with
    | none =>
      obtain rfl : st = {} := h
      simp [step, follow, update_nothing, Holds]
    | some login =>
      obtain ⟨session, hnormal, hshows, rfl⟩ := h
      obtain ⟨next, hnext, hnormal', hshows'⟩ :=
        update_put built built' tokens hnormal hshows
      exact ⟨next, hnormal', hshows', by rw [step, hnext]; simp [Login.with_tokens]⟩
  | read built =>
    cases login with
    | none =>
      obtain rfl : st = {} := h
      simp [step, follow, read_nothing, Holds]
    | some login =>
      obtain ⟨session, hnormal, hshows, rfl⟩ := h
      exact ⟨session, hnormal, hshows, by rw [step, read_put hnormal]⟩
  | clear => simp [step, follow, clear_stored_session, Holds]

/-- The stores hold the current login after every run. -/
theorem run_holds (ops : List Operation) :
    Holds decode_jwt_subject (run decode_jwt_subject ops) (current ops) := by
  have hfrom : ∀ (ops : List Operation) (st : Stores) (login : Option Login),
      Holds decode_jwt_subject st login →
        Holds decode_jwt_subject (ops.foldl (step decode_jwt_subject) st)
          (ops.foldl follow login) := by
    intro ops
    induction ops with
    | nil => exact fun st login h => h
    | cons op ops ih => exact fun st login h => ih _ _ (holds_step h op)
  exact hfrom ops {} none (by simp [Holds])

/-- There is no login from a clear to the next save. -/
theorem current_cleared {before after : List Operation}
    (h : ∀ built session, .save built session ∉ after) :
    current (before ++ .clear :: after) = none := by
  have hnone : ∀ ops : List Operation, (∀ built session, .save built session ∉ ops) →
      ops.foldl follow none = none := by
    intro ops
    induction ops with
    | nil => simp
    | cons op ops ih =>
      intro h
      have hfollow : follow none op = none := by
        cases op with
        | save built session => exact absurd List.mem_cons_self (h built session)
        | _ => simp [follow]
      rw [List.foldl_cons, hfollow]
      exact ih fun built session hmem => h built session (List.mem_cons_of_mem _ hmem)
  simp only [current, List.foldl_append, List.foldl_cons, follow]
  exact hnone after h

/-! ## The law -/

variable (decode_jwt_subject)

/-- After every run the stores hold the current login and nothing else. -/
theorem the_stored_session_is_consistent (ops : List Operation) :
    Consistent decode_jwt_subject ops := by
  have hholds := @run_holds decode_jwt_subject ops
  have hcleared : ∀ before after, ops = before ++ .clear :: after →
      (∀ built session, .save built session ∉ after) → run decode_jwt_subject ops = {} := by
    intro before after hsplit hsave
    rw [hsplit, current_cleared hsave, ← hsplit] at hholds
    exact hholds
  cases hlogin : current ops with
  | none =>
    have hempty : run decode_jwt_subject ops = {} := by
      rw [hlogin] at hholds
      exact hholds
    refine ⟨?_, ?_, ?_, fun built => ⟨none, ?_, ?_⟩, fun built built' tokens => ?_, ?_⟩
    · simp [hempty]
    · simp [hempty, hlogin]
    · simp [hempty, hlogin]
    · rw [hempty, read_nothing]
    · simp [hlogin, Returns]
    · rw [hempty, update_nothing, hlogin]
      simp [Returns]
    · intro before after hsplit hsave
      rw [hempty]
      exact ⟨by simp, read_nothing, fun built built' tokens => update_nothing built built' tokens⟩
  | some login =>
    rw [hlogin] at hholds
    obtain ⟨session, hnormal, hshows, hst⟩ := hholds
    refine ⟨?_, ?_, ?_, fun built => ⟨some session, ?_, ?_⟩, fun built built' tokens => ?_, ?_⟩
    · rw [hst]
      cases login.persisted <;> simp [put]
    · rw [hst, hlogin]
      cases hpersisted : login.persisted <;> simp [put, hpersisted]
    · rw [hst, hlogin]
      cases hpersisted : login.persisted <;> simp [put, hpersisted]
    · rw [hst, read_put hnormal]
    · rw [hlogin]
      exact ⟨session, by simp, hshows⟩
    · obtain ⟨next, hnext, -, hshows'⟩ := update_put built built' tokens hnormal hshows
      rw [hst, hnext, hlogin]
      exact ⟨next, by simp, hshows'⟩
    · intro before after hsplit hsave
      have hempty := hcleared before after hsplit hsave
      rw [hempty]
      exact ⟨by simp, read_nothing, fun built built' tokens => update_nothing built built' tokens⟩

end loomic.stored_session
