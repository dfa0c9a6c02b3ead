-- The search for users: the text that is typed into the client, the two encoders on its way
-- to the server, the query parameter there, and the pattern that becomes of it. The server
-- does not decode the parameter, and a name may hold a wildcard.
import Loomic.HttpAnswers
import Loomic.Lib.Patterns
import Loomic.Lib.PercentCodes
import Loomic.ReceiptGuesses
import Loomic.TextDecoding

open coroutines loomic.auth_handler loomic.chat_frames loomic.frame loomic.http_handlers
  loomic.http_server loomic.json loomic.receipt_guesses loomic.text_decoding patterns
open loomic.groups_handler (to_string)

namespace loomic.user_search

/-! ## The client -/

/-- `length`, in units of UTF-16. -/
def utf16_length (s : List Char) : Nat :=
  (s.map fun c => if c.toNat < 0x10000 then 1 else 2).sum

/-- The characters that `encodeURIComponent` leaves alone. -/
def uri_unreserved (c : Char) : Bool := c.isAlphanum || c ∈ "-_.!~*'()".toList

def encode_uri_component (s : String) : List Char := percent_codes.encode uri_unreserved s.toList

/-- What `fetch` leaves alone in the query of a URL. -/
def kept_in_query (c : Char) : Bool := 0x21 ≤ c.toNat && c.toNat ≤ 0x7E && c ∉ "\"#<>'".toList

/-- The query that the client sends to the proxy. -/
def fetch_query (query : String) (limit : Nat) : List Char :=
  percent_codes.encode kept_in_query
    ("q=".toList ++ encode_uri_component query ++ "&limit=".toList ++ (toString limit).toList)

/-! ## The proxy -/

def form_decode (s : List Char) : String :=
  String.ofList (decode_bytes {} (percent_codes.decode (s.map fun c => if c = '+' then ' ' else c)))

/-- `nextUrl.searchParams`. -/
def search_params (query : List Char) : List (String × String) :=
  ((query.splitOn '&').filter fun pair => pair ≠ []).map fun pair =>
    match cut_at '=' pair with
    | some (key, value) => (form_decode key, form_decode value)
    | none => (form_decode pair, "")

/-- `searchParams.set`: the first pair with the key gets the value, the others go. -/
def set_param (params : List (String × String)) (key value : String) : List (String × String) :=
  params.takeWhile (fun p => p.1 ≠ key) ++
    (key, value) :: (params.dropWhile fun p => p.1 ≠ key).filter fun p => p.1 ≠ key

def kept_in_form (c : Char) : Bool := c.isAlphanum || c ∈ "*-._".toList

def form_encode_char (c : Char) : List Char :=
  if c = ' ' then ['+'] else percent_codes.encode_char kept_in_form c

def form_encode (s : String) : List Char := s.toList.flatMap form_encode_char

def form_serialize (params : List (String × String)) : List Char :=
  ['&'].intercalate (params.map fun (key, value) => form_encode key ++ '=' :: form_encode value)

/-- The target of the request to the server. -/
def upstream_target (query : List Char) : String :=
  "/users/search?" ++ String.ofList (form_serialize
    ((search_params query).foldl (fun params p => set_param params p.1 p.2) []))

/-! ## The database -/

/-- Wildcards, the escape and white space. -/
def has_no_case (c : Char) : Bool := c ∈ ['%', '_', '\\'] || is_space c

/-- How the database folds case. A character that has no case is folded to itself, and is the
only one that is. -/
structure Collation where
  lower : Char → Char
  lower_eq_iff : ∀ {c d : Char}, has_no_case c = true → (lower d = c ↔ d = c)

def Collation.fold (collation : Collation) (s : String) : List Char :=
  s.toList.map collation.lower

/-- The pattern of LIKE. `none` is the error of an escape at the end. -/
def like_items : List Char → Option (List (Item Char))
  | [] => some []
  | '%' :: p => (like_items p).map fun items => .any :: items
  | '_' :: p => (like_items p).map fun items => .one :: items
  | '\\' :: c :: p => (like_items p).map fun items => .lit c :: items
  | ['\\'] => none
  | c :: p => (like_items p).map fun items => .lit c :: items

/-- SELECT id, username FROM users WHERE username ILIKE $1 || '%' LIMIT $2 -/
def select_users (collation : Collation) (users : List (UserId × String)) (q : String)
    (limit : UInt64) : Option (List (UserId × String)) :=
  (like_items (collation.fold (q ++ "%"))).map fun items =>
    (users.filter fun row => fits items (collation.fold row.2)).take limit.toNat

/-! ## The search -/

/-- A server with its database, and a user who is signed in. -/
structure Deployment where
  setup : Setup
  gen : Generated
  authorization : String
  user : UserId
  signed_in : require_auth setup.services authorization = some user
  collation : Collation
  /-- The answers to other calls. -/
  others : Answers Call Call.Answer

variable (dep : Deployment)

def Deployment.answers (users : List (UserId × String)) : Answers Call Call.Answer := fun n call =>
  match call with
  | .search_users q limit => select_users dep.collation users q limit
  | call => dep.others n call

def Deployment.req (target : String) : Request :=
  { method := .get, target, authorization := dep.authorization }

/-- The answer of the server to what is typed, with a limit that the client asks for. `none`
is a search that is not made, or an exception. -/
def Deployment.search (users : List (UserId × String)) (typed : String) (limit : Nat) :
    Option Response :=
  let query := trim typed
  if utf16_length query.toList < 2 then none
  else
    let req := dep.req (upstream_target (fetch_query query limit))
    (find_route routes req).bind fun (endpoint, params) =>
      (serve dep.setup dep.gen endpoint req params).run (dep.answers users)

/-- The response with these users. -/
def found (rows : List (UserId × String)) : Response :=
  make_json .ok (.json (.object [("users", .array (rows.map fun row =>
    .object [("id", to_string row.1), ("username", .string row.2)]))]))

def StartsWith (collation : Collation) (typed name : String) : Prop :=
  collation.fold typed <+: collation.fold name

instance decidable_starts_with (collation : Collation) (typed name : String) :
    Decidable (StartsWith collation typed name) := by
  unfold StartsWith
  infer_instance

/-- The users who are to be found. -/
def Deployment.wanted (users : List (UserId × String)) (typed : String) : List (UserId × String) :=
  users.filter fun row => StartsWith dep.collation typed row.2

/-- Every search for the text with a sufficient limit finds the users whose names start with
it, and no others. -/
def Finds (typed : String) : Prop := ∀ users limit,
  (dep.wanted users typed).length ≤ (limit_of (toString limit) 10 20).toNat →
    dep.search users typed limit = some (found (dep.wanted users typed))

/-- The characters that neither an encoder nor a pattern changes. -/
def Plain (c : Char) : Prop := c.isAlphanum = true ∨ c = '*' ∨ c = '-' ∨ c = '.'

/-! ## The way of the text -/

theorem form_decode_eq {s : List Char} {t : String} (hplus : '+' ∉ s)
    (hdecode : percent_codes.decode s = t.toList.flatMap String.utf8EncodeChar) :
    form_decode s = t := by
  have hmap : (s.map fun c => if c = '+' then ' ' else c) = s := by
    refine (List.map_congr_left fun c hc => if_neg ?_).trans (List.map_id s)
    rintro rfl
    exact hplus hc
  rw [form_decode, hmap, hdecode, ← bytes_eq_flatMap, decode_bytes_encode, String.ofList_toList]

/-- A text without a sign that the proxy reads is read as it is. -/
theorem form_decode_plain {t : String} (hplus : '+' ∉ t.toList) (hpercent : '%' ∉ t.toList) :
    form_decode t.toList = t :=
  form_decode_eq hplus (percent_codes.decode_plain hpercent)

theorem kept_of_in_code {c : Char} (h : percent_codes.in_code c = true) :
    kept_in_query c = true := by
  have hbounds : 0x21 ≤ c.toNat ∧ c.toNat ≤ 0x7E := by
    simp only [percent_codes.in_code, decide_eq_true_eq, Char.isDigit, Bool.and_eq_true,
      Char.le_def, UInt32.le_iff_toNat_le] at h
    rcases h with rfl | h | h
    · decide
    · exact ⟨Nat.le_trans (by decide) h.1, Nat.le_trans h.2 (by decide)⟩
    · exact ⟨Nat.le_trans (by decide) h.1, Nat.le_trans h.2 (by decide)⟩
  have hno : c ≠ '"' ∧ c ≠ '#' ∧ c ≠ '<' ∧ c ≠ '>' ∧ c ≠ '\'' := by
    refine ⟨?_, ?_, ?_, ?_, ?_⟩ <;> (rintro rfl; exact absurd h (by decide))
  simp [kept_in_query, hbounds, hno]

/-- The proxy reads what was typed. -/
theorem form_decode_encoded (query : String) :
    form_decode (percent_codes.encode kept_in_query (encode_uri_component query)) = query := by
  rw [encode_uri_component, percent_codes.encode_encode fun c => kept_of_in_code]
  refine form_decode_eq (percent_codes.not_mem_encode _ (by decide) (by decide)) ?_
  simpa [percent_codes.decode] using
    @percent_codes.decode_encode (fun c => uri_unreserved c && kept_in_query c) (by decide)
      query.toList []

theorem digit_of_mem {c : Char} {n : Nat} (h : c ∈ (toString n).toList) : c.isDigit = true := by
  by_contra hdigit
  exact not_mem_toString (by simpa using hdigit) n h

/-- The parameters of the request to the proxy. -/
theorem search_params_fetch (query : String) (limit : Nat) :
    search_params (fetch_query query limit) = [("q", query), ("limit", toString limit)] := by
  have hkept : ∀ c ∈ (toString limit).toList, kept_in_query c = true := by
    intro c hc
    exact kept_of_in_code (by simp [percent_codes.in_code, digit_of_mem hc])
  have hquery : fetch_query query limit =
      ("q".toList ++ '=' :: percent_codes.encode kept_in_query (encode_uri_component query)) ++
        '&' :: ("limit".toList ++ '=' :: (toString limit).toList) := by
    rw [fetch_query, percent_codes.encode_append, percent_codes.encode_append,
      percent_codes.encode_append, percent_codes.encode_of_kept hkept,
      percent_codes.encode_of_kept (s := "q=".toList) (by simp [kept_in_query]),
      percent_codes.encode_of_kept (s := "&limit=".toList) (by simp [kept_in_query])]
    simp
  have hencoded : '&' ∉ percent_codes.encode kept_in_query (encode_uri_component query) := by
    rw [encode_uri_component, percent_codes.encode_encode fun c => kept_of_in_code]
    exact percent_codes.not_mem_encode _ (by decide) (by decide)
  have hfirst : '&' ∉ "q".toList ++
      '=' :: percent_codes.encode kept_in_query (encode_uri_component query) := by
    simpa using hencoded
  have hsecond : '&' ∉ "limit".toList ++ '=' :: (toString limit).toList := by
    simpa using not_mem_toString (c := '&') (by decide) limit
  have hlimit : form_decode (toString limit).toList = toString limit :=
    form_decode_plain (not_mem_toString (by decide) limit) (not_mem_toString (by decide) limit)
  have hkey : form_decode "q".toList = "q" := form_decode_plain (by decide) (by decide)
  have hkey' : form_decode "limit".toList = "limit" := form_decode_plain (by decide) (by decide)
  rw [search_params, hquery, List.splitOn_append_cons_self_of_not_mem hfirst,
    List.splitOn_eq_singleton hsecond,
    List.filter_cons_of_pos (by simp), List.filter_cons_of_pos (by simp), List.filter_nil,
    List.map_cons, List.map_cons, cut_at_append (by decide), cut_at_append (by decide)]
  simp only [hkey, hkey', form_decode_encoded, hlimit, List.map_nil]

theorem form_encode_kept {s : String} (h : ∀ c ∈ s.toList, kept_in_form c = true) :
    form_encode s = s.toList := by
  have hchar : ∀ c ∈ s.toList, form_encode_char c = [c] := by
    intro c hc
    have hspace : c ≠ ' ' := by
      rintro rfl
      exact absurd (h ' ' hc) (by decide)
    rw [form_encode_char, if_neg hspace, percent_codes.encode_char, if_pos (h c hc)]
  rw [form_encode, List.flatMap_congr hchar, List.flatMap_singleton']

/-- The request to the server. -/
theorem upstream_target_eq (query : String) (limit : Nat) :
    (upstream_target (fetch_query query limit)).toList =
      "/users/search".toList ++ '?' :: (("q".toList ++ '=' :: form_encode query) ++
        '&' :: ("limit".toList ++ '=' :: (toString limit).toList)) := by
  have hdigits : form_encode (toString limit) = (toString limit).toList :=
    form_encode_kept fun c hc => by simp [kept_in_form, Char.isAlphanum, digit_of_mem hc]
  have hkey : form_encode "q" = "q".toList := by decide
  have hkey' : form_encode "limit" = "limit".toList := by decide
  unfold upstream_target
  rw [search_params_fetch]
  generalize toString limit = text at hdigits ⊢
  simp [set_param, form_serialize, hdigits, hkey, hkey']

theorem query_pairs_upstream (query : String) (limit : Nat) :
    query_pairs (upstream_target (fetch_query query limit)) =
      [("q", String.ofList (form_encode query)), ("limit", toString limit)] := by
  have hencoded : '&' ∉ form_encode query := by
    intro h
    obtain ⟨c, -, hc⟩ := List.mem_flatMap.1 h
    unfold form_encode_char at hc
    split at hc
    · simp at hc
    · exact @percent_codes.not_mem_encode kept_in_form '&' [c] (by decide) (by decide)
        (by simpa using hc)
  have hfirst : '&' ∉ "q".toList ++ '=' :: form_encode query := by simpa using hencoded
  have hsecond : '&' ∉ "limit".toList ++ '=' :: (toString limit).toList := by
    simpa using not_mem_toString (c := '&') (by decide) limit
  rw [query_pairs_two (upstream_target_eq query limit) (by decide) (by decide) (by decide) hfirst
    hsecond, String.ofList_toList, String.ofList_toList, String.ofList_toList]

/-- A route is found by the path alone. -/
theorem find_route_path {ε : Type} (routes : List (Route ε)) {req req' : Request}
    (hmethod : req.method = req'.method)
    (hpath : req.target.toList.takeWhile (· ≠ '?') = req'.target.toList.takeWhile (· ≠ '?')) :
    find_route routes req = find_route routes req' := by
  simp only [find_route, match_path, hmethod, hpath]

theorem route_upstream (query : String) (limit : Nat) :
    find_route routes (dep.req (upstream_target (fetch_query query limit))) =
      some (.search_users, []) := by
  have hpath : (upstream_target (fetch_query query limit)).toList.takeWhile (· ≠ '?') =
      "/users/search".toList.takeWhile (· ≠ '?') := by
    rw [upstream_target_eq, List.takeWhile_append_of_pos (by simp)]
    simp
  have hsame : find_route routes (dep.req (upstream_target (fetch_query query limit))) =
      find_route routes { method := .get, target := "/users/search" } :=
    find_route_path routes (by simp [Deployment.req]) (by simpa [Deployment.req] using hpath)
  rw [hsame]
  decide

theorem with_user_signed_in {target : String} (k : UserId → HttpCoroutine) :
    with_user dep.setup.services (dep.req target) k = k dep.user := by
  have hauth : require_auth dep.setup.services (dep.req target).authorization = some dep.user :=
    dep.signed_in
  rw [with_user, hauth]

theorem form_encode_char_cases (c : Char) :
    (kept_in_form c = true ∧ form_encode_char c = [c]) ∨ (c = ' ' ∧ form_encode_char c = ['+']) ∨
      (kept_in_form c = false ∧
        form_encode_char c = (String.utf8EncodeChar c).flatMap percent_codes.code) := by
  by_cases hspace : c = ' '
  · exact .inr (.inl ⟨hspace, if_pos hspace⟩)
  · rw [form_encode_char, if_neg hspace, percent_codes.encode_char]
    cases hkept : kept_in_form c <;> simp

theorem alphanum_bounds {c : Char} (h : c.isAlphanum = true) :
    (48 ≤ c.toNat ∧ c.toNat ≤ 57) ∨ (65 ≤ c.toNat ∧ c.toNat ≤ 90) ∨
      (97 ≤ c.toNat ∧ c.toNat ≤ 122) := by
  rcases Bool.or_eq_true_iff.1 h with halpha | hdigit
  · rcases Bool.or_eq_true_iff.1 halpha with hupper | hlower
    · have hval : 'A'.val ≤ c.val ∧ c.val ≤ 'Z'.val := of_decide_eq_true hupper
      exact .inr (.inl ⟨hval.1, hval.2⟩)
    · have hval := Bool.and_eq_true_iff.1 hlower
      exact .inr (.inr ⟨of_decide_eq_true hval.1, of_decide_eq_true hval.2⟩)
  · have hval := Bool.and_eq_true_iff.1 hdigit
    exact .inl ⟨of_decide_eq_true hval.1, of_decide_eq_true hval.2⟩

theorem kept_in_form_iff (c : Char) : kept_in_form c = true ↔ Plain c ∨ c = '_' := by
  simp only [kept_in_form, Plain]
  simp
  tauto

theorem kept_in_form_ascii {c : Char} (h : kept_in_form c = true) : c.toNat < 128 := by
  rcases (kept_in_form_iff c).1 h with (halpha | rfl | rfl | rfl) | rfl
  · have hbounds := alphanum_bounds halpha
    omega
  all_goals decide

theorem length_codes (octets : List UInt8) :
    (octets.flatMap percent_codes.code).length = 3 * octets.length := by
  induction octets with
  | nil => simp
  | cons octet octets ih =>
    rw [List.flatMap_cons, List.length_append, ih, percent_codes.code, List.length_cons]
    simp
    omega

theorem utf16_length_le (s : List Char) : utf16_length s ≤ (s.flatMap form_encode_char).length := by
  induction s with
  | nil => simp [utf16_length]
  | cons c s ih =>
    have hchar : (if c.toNat < 0x10000 then 1 else 2) ≤ (form_encode_char c).length := by
      rcases form_encode_char_cases c with ⟨hkept, hcode⟩ | ⟨rfl, hcode⟩ | ⟨-, hcode⟩
      · have hascii := kept_in_form_ascii hkept
        rw [hcode, if_pos (by omega), List.length_singleton]
      · rw [hcode]
        decide
      · have hsize := Char.utf8Size_pos c
        rw [hcode, length_codes, String.length_utf8EncodeChar]
        split <;> omega
    have hsum : utf16_length (c :: s) =
        (if c.toNat < 0x10000 then 1 else 2) + utf16_length s := by simp [utf16_length]
    rw [hsum, List.flatMap_cons, List.length_append]
    omega

theorem search_users_run (users : List (UserId × String)) {target : String}
    (hlength : 2 ≤ ((query_param target "q").getD "").length) :
    (search_users dep.setup.services (dep.req target) []).run (dep.answers users) =
      some (match select_users dep.collation users ((query_param target "q").getD "")
          (limit_of ((query_param target "limit").getD "") 10 20) with
        | none => make_error .internal_server_error "database error"
        | some rows => found rows) := by
  have hanswer : dep.answers users 0 (.search_users ((query_param target "q").getD "")
      (limit_of ((query_param target "limit").getD "") 10 20)) =
      select_users dep.collation users ((query_param target "q").getD "")
        (limit_of ((query_param target "limit").getD "") 10 20) := by simp [Deployment.answers]
  have htarget : (dep.req target).target = target := by simp [Deployment.req]
  rw [search_users, with_user_signed_in, htarget]
  dsimp only
  rw [if_neg (Nat.not_lt.mpr hlength), run_await, hanswer]
  cases select_users dep.collation users ((query_param target "q").getD "")
    (limit_of ((query_param target "limit").getD "") 10 20) with
  | none => simp [database_error]
  | some rows => simp [reply, found]

/-- What the server answers to a text that is searched for. -/
theorem search_eq (users : List (UserId × String)) {typed : String} (limit : Nat)
    (h : 2 ≤ utf16_length (trim typed).toList) :
    dep.search users typed limit =
      some (match select_users dep.collation users (String.ofList (form_encode (trim typed)))
          (limit_of (toString limit) 10 20) with
        | none => make_error .internal_server_error "database error"
        | some rows => found rows) := by
  have hq : query_param (upstream_target (fetch_query (trim typed) limit)) "q" =
      some (String.ofList (form_encode (trim typed))) := by
    rw [query_param, query_pairs_upstream, List.lookup_cons_self]
  have hlimit : query_param (upstream_target (fetch_query (trim typed) limit)) "limit" =
      some (toString limit) := by
    have hne : ("limit" == "q") = false := by decide
    rw [query_param, query_pairs_upstream, List.lookup_cons, hne, List.lookup_cons_self]
  have hlength : 2 ≤ (String.ofList (form_encode (trim typed))).length := by
    rw [String.length_ofList, form_encode]
    exact h.trans (utf16_length_le _)
  rw [Deployment.search, if_neg (by omega)]
  simp only [route_upstream, Option.bind_some, serve]
  rw [search_users_run dep users (by rw [hq]; exact hlength), hq, hlimit, Option.getD_some,
    Option.getD_some]

/-! ## White space and weight -/

/-- What is trimmed is white space. -/
theorem trim_split (s : String) : ∃ before after, s.toList = before ++ (trim s).toList ++ after ∧
    ∀ c ∈ before ++ after, is_space c = true := by
  refine ⟨s.toList.takeWhile is_space,
    ((s.toList.dropWhile is_space).reverse.takeWhile is_space).reverse, ?_, ?_⟩
  · rw [trim, String.toList_ofList, List.append_assoc, ← List.reverse_append,
      List.takeWhile_append_dropWhile, List.reverse_reverse, List.takeWhile_append_dropWhile]
  · intro c hc
    rcases List.mem_append.1 hc with hc | hc
    · exact List.mem_takeWhile_imp hc
    · exact List.mem_takeWhile_imp (List.mem_reverse.1 hc)

/-- The number of characters that a wildcard or white space cannot stand for. -/
def weight (s : List Char) : Nat := s.countP fun c => !has_no_case c

@[simp] theorem weight_append (s t : List Char) : weight (s ++ t) = weight s + weight t := by
  simp [weight]

theorem weight_spaces {s : List Char} (h : ∀ c ∈ s, is_space c = true) : weight s = 0 := by
  rw [weight, List.countP_eq_zero]
  intro c hc
  simp [has_no_case, h c hc]

theorem weight_trim (s : String) : weight s.toList = weight (trim s).toList := by
  obtain ⟨before, after, hsplit, hspaces⟩ := trim_split s
  rw [hsplit, weight_append, weight_append,
    weight_spaces fun c hc => hspaces c (List.mem_append_left _ hc),
    weight_spaces fun c hc => hspaces c (List.mem_append_right _ hc)]
  omega

theorem has_no_case_plain {c : Char} (h : Plain c) : has_no_case c = false := by
  rcases h with halpha | rfl | rfl | rfl
  · have hbounds := alphanum_bounds halpha
    have hne : c ≠ '%' ∧ c ≠ '_' ∧ c ≠ '\\' := by
      refine ⟨?_, ?_, ?_⟩ <;> (rintro rfl; exact absurd hbounds (by decide))
    have hspace : is_space c = false := by
      simp [is_space]
      omega
    simp [has_no_case, hne, hspace]
  all_goals decide

theorem trim_plain {s : String} (h : ∀ c ∈ s.toList, Plain c) : trim s = s := by
  obtain ⟨before, after, hsplit, hspaces⟩ := trim_split s
  have hnone : ∀ c ∈ before ++ after, c ∉ s.toList := by
    intro c hc hmem
    have hcase := has_no_case_plain (h c hmem)
    simp [has_no_case, hspaces c hc] at hcase
  have hbefore : before = [] := List.eq_nil_iff_forall_not_mem.2 fun c hc =>
    hnone c (List.mem_append_left _ hc) (by rw [hsplit]; simp [hc])
  have hafter : after = [] := List.eq_nil_iff_forall_not_mem.2 fun c hc =>
    hnone c (List.mem_append_right _ hc) (by rw [hsplit]; simp [hc])
  rw [hbefore, hafter, List.nil_append, List.append_nil] at hsplit
  exact String.toList_inj.1 hsplit.symm

theorem weight_codes (octets : List UInt8) :
    weight (octets.flatMap percent_codes.code) = 2 * octets.length := by
  induction octets with
  | nil => simp [weight]
  | cons octet octets ih =>
    have hdigit : ∀ k : Fin 16, has_no_case (percent_codes.hex_digit k) = false := by decide
    have hlt := octet.toNat_lt
    have hhigh := hdigit ⟨octet.toNat / 16, by omega⟩
    have hlow := hdigit ⟨octet.toNat % 16, by omega⟩
    have hcode : weight (percent_codes.code octet) = 2 := by
      have hpercent : has_no_case '%' = true := by decide
      simp only at hhigh hlow
      simp [weight, percent_codes.code, hhigh, hlow, hpercent]
    rw [List.flatMap_cons, weight_append, ih, hcode, List.length_cons]
    omega

/-- A character that is encoded gets heavier. -/
theorem weight_encode_char (c : Char) :
    weight [c] ≤ weight (form_encode_char c) ∧
      (kept_in_form c = false → weight [c] < weight (form_encode_char c)) := by
  have hone : weight [c] ≤ 1 := List.countP_le_length
  rcases form_encode_char_cases c with ⟨hkept, hcode⟩ | ⟨rfl, hcode⟩ | ⟨hkept, hcode⟩
  · simp [hcode, hkept]
  · rw [hcode]
    decide
  · have hsize := Char.utf8Size_pos c
    rw [hcode, weight_codes, String.length_utf8EncodeChar]
    omega

theorem weight_encode (s : List Char) :
    weight s ≤ weight (s.flatMap form_encode_char) ∧
      ((∃ c ∈ s, kept_in_form c = false) → weight s < weight (s.flatMap form_encode_char)) := by
  induction s with
  | nil => simp
  | cons c s ih =>
    have hchar := weight_encode_char c
    have hsplit : weight (c :: s) = weight [c] + weight s := weight_append [c] s
    rw [hsplit, List.flatMap_cons, weight_append]
    refine ⟨by omega, ?_⟩
    rintro ⟨d, hd, hkept⟩
    rcases List.mem_cons.1 hd with rfl | hd
    · have hlt := hchar.2 hkept
      omega
    · have hlt := ih.2 ⟨d, hd, hkept⟩
      omega

/-! ## The pattern -/

/-- What a character of a pattern stands for, unless it is the escape. -/
def item_of (c : Char) : Item Char := if c = '%' then .any else if c = '_' then .one else .lit c

/-- The items of a text with `%` behind it. -/
def items_of (w : List Char) : List (Item Char) := w.map item_of ++ [.any]

theorem like_items_eq {p : List Char} (h : '\\' ∉ p) : like_items p = some (p.map item_of) := by
  induction p with
  | nil => simp [like_items]
  | cons c p ih =>
    have hp := ih fun hmem => h (List.mem_cons_of_mem c hmem)
    have hescape : c ≠ '\\' := by
      rintro rfl
      exact h List.mem_cons_self
    unfold like_items
    split <;> simp_all [item_of]

section Collations

variable (collation : Collation)

theorem lower_self {c : Char} (h : has_no_case c = true) : collation.lower c = c :=
  (collation.lower_eq_iff h).2 (by simp)

theorem has_no_case_lower (c : Char) : has_no_case (collation.lower c) = has_no_case c := by
  rw [Bool.eq_iff_iff]
  constructor
  · intro h
    have heq : c = collation.lower c := (collation.lower_eq_iff h).1 (by simp)
    rwa [← heq] at h
  · intro h
    rwa [lower_self collation h]

theorem weight_fold (s : List Char) : weight (s.map collation.lower) = weight s := by
  rw [weight, weight, List.countP_map]
  refine List.countP_congr fun c _ => ?_
  simp [has_no_case_lower]

theorem item_of_lower {c : Char} (hpercent : c ≠ '%') (hone : c ≠ '_') :
    item_of (collation.lower c) = .lit (collation.lower c) := by
  have hpercent' : collation.lower c ≠ '%' := by
    rwa [Ne, collation.lower_eq_iff (by decide)]
  have hone' : collation.lower c ≠ '_' := by
    rwa [Ne, collation.lower_eq_iff (by decide)]
  rw [item_of, if_neg hpercent', if_neg hone']

/-- The items of the pattern for a text without wildcards and escapes of its own. -/
theorem select_users_eq (users : List (UserId × String)) {q : String} (hescape : '\\' ∉ q.toList)
    (limit : UInt64) :
    select_users collation users q limit =
      some ((users.filter fun row => fits (items_of (q.toList.map collation.lower))
        (collation.fold row.2)).take limit.toNat) := by
  have hpercent : collation.lower '%' = '%' := lower_self collation (by decide)
  have hfold : collation.fold (q ++ "%") = q.toList.map collation.lower ++ ['%'] := by
    simp [Collation.fold, hpercent]
  have hno : '\\' ∉ q.toList.map collation.lower ++ ['%'] := by
    intro hmem
    rcases List.mem_append.1 hmem with hmem | hmem
    · obtain ⟨c, hc, hlower⟩ := List.mem_map.1 hmem
      rw [collation.lower_eq_iff (by decide)] at hlower
      exact hescape (hlower ▸ hc)
    · simp at hmem
  have hitems : (q.toList.map collation.lower ++ ['%']).map item_of =
      items_of (q.toList.map collation.lower) := by simp [items_of, item_of]
  rw [select_users, hfold, like_items_eq hno, Option.map_some, hitems]

theorem literals_eq (w : List Char) : (items_of w).filterMap Item.literal =
    w.filter fun c => c ≠ '%' ∧ c ≠ '_' := by
  induction w with
  | nil => simp [items_of, Item.literal]
  | cons c w ih =>
    have hcons : items_of (c :: w) = item_of c :: items_of w := by simp [items_of]
    rw [hcons, List.filterMap_cons, ih]
    by_cases hpercent : c = '%'
    · simp [item_of, Item.literal, hpercent]
    · by_cases hone : c = '_' <;> simp [item_of, Item.literal, hpercent, hone]

/-- What a pattern matches is at least as heavy as the pattern. -/
theorem weight_le_of_fits {w s : List Char} (h : fits (items_of w) s = true) :
    weight w ≤ weight s := by
  have hsublist := literals_sublist h
  rw [literals_eq] at hsublist
  have hweight : weight (w.filter fun c => c ≠ '%' ∧ c ≠ '_') = weight w := by
    rw [weight, weight, List.countP_filter]
    refine List.countP_congr fun c _ => ?_
    simp [has_no_case]
    tauto
  exact hweight ▸ hsublist.countP_le

end Collations

/-! ## The law -/

theorem form_encode_no_escape (s : List Char) : '\\' ∉ s.flatMap form_encode_char := by
  intro h
  obtain ⟨c, -, hc⟩ := List.mem_flatMap.1 h
  rcases form_encode_char_cases c with ⟨hkept, hcode⟩ | ⟨rfl, hcode⟩ | ⟨-, hcode⟩
  · rw [hcode, List.mem_singleton] at hc
    exact absurd hkept (hc ▸ by decide)
  · simp [hcode] at hc
  · rw [hcode] at hc
    obtain ⟨octet, -, hoctet⟩ := List.mem_flatMap.1 hc
    exact absurd (percent_codes.in_code_of_mem hoctet) (by decide)

/-- The users whom the server finds. -/
theorem search_finds (users : List (UserId × String)) {typed : String} (limit : Nat)
    (h : 2 ≤ utf16_length (trim typed).toList) :
    dep.search users typed limit = some (found ((users.filter fun row =>
      fits (items_of ((form_encode (trim typed)).map dep.collation.lower))
        (dep.collation.fold row.2)).take (limit_of (toString limit) 10 20).toNat)) := by
  have hescape : '\\' ∉ (String.ofList (form_encode (trim typed))).toList := by
    rw [String.toList_ofList]
    exact form_encode_no_escape _
  rw [search_eq dep users limit h, select_users_eq dep.collation users hescape,
    String.toList_ofList]

theorem finds_plain {typed : String} (hlength : 2 ≤ utf16_length typed.toList)
    (h : ∀ c ∈ typed.toList, Plain c) : Finds dep typed := by
  intro users limit hlimit
  have hencode : form_encode typed = typed.toList :=
    form_encode_kept fun c hc => (kept_in_form_iff c).2 (.inl (h c hc))
  have hitems : items_of (typed.toList.map dep.collation.lower) =
      (dep.collation.fold typed).map Item.lit ++ [.any] := by
    rw [items_of, Collation.fold, List.map_map, List.map_map]
    congr 1
    refine List.map_congr_left fun c hc => item_of_lower dep.collation ?_ ?_ <;>
      (rintro rfl; exact absurd (has_no_case_plain (h _ hc)) (by decide))
  have hwanted : (users.filter fun row => fits ((dep.collation.fold typed).map Item.lit ++ [.any])
      (dep.collation.fold row.2)) = dep.wanted users typed := by
    refine List.filter_congr fun row _ => ?_
    rw [Bool.eq_iff_iff, fits_prefix_iff, decide_eq_true_eq, StartsWith]
  rw [search_finds dep users limit (by rw [trim_plain h]; exact hlength), trim_plain h, hencode,
    hitems, hwanted, List.take_of_length_le hlimit]

theorem length_of_found {rows rows' : List (UserId × String)} (h : found rows = found rows') :
    rows.length = rows'.length := by
  have hbody := congrArg Response.body h
  simp only [found, make_json, Response.set, Body.json.injEq, Json.object.injEq, List.cons.injEq,
    Prod.mk.injEq, Json.array.injEq, true_and, and_true] at hbody
  simpa using congrArg List.length hbody

/-- One user who is found and not wanted, or wanted and not found. -/
theorem not_finds {typed : String} (row : UserId × String)
    (h : 2 ≤ utf16_length (trim typed).toList)
    (hdiffer : ¬ (fits (items_of ((form_encode (trim typed)).map dep.collation.lower))
      (dep.collation.fold row.2) = true ↔ StartsWith dep.collation typed row.2)) :
    ¬ Finds dep typed := by
  intro hfinds
  have hlimit : (limit_of (toString 8) 10 20).toNat = 8 := by decide
  have hwanted : (dep.wanted [row] typed).length ≤ 1 := List.length_filter_le _ _
  have heq := hfinds [row] 8 (by omega)
  rw [search_finds dep [row] 8 h, hlimit, Option.some.injEq] at heq
  have hlength := length_of_found heq
  apply hdiffer
  by_cases hfits : fits (items_of ((form_encode (trim typed)).map dep.collation.lower))
      (dep.collation.fold row.2) = true <;>
    by_cases hstarts : StartsWith dep.collation typed row.2 <;>
    simp_all [Deployment.wanted]

/-- A text with a character that is encoded is not found. -/
theorem not_finds_encoded {typed : String} (h : 2 ≤ utf16_length (trim typed).toList)
    (hencoded : ∃ c ∈ (trim typed).toList, kept_in_form c = false) : ¬ Finds dep typed := by
  refine not_finds dep (0, typed) h fun hiff => ?_
  have hstarts : StartsWith dep.collation typed typed := List.prefix_refl _
  have hle : weight ((form_encode (trim typed)).map dep.collation.lower) ≤
      weight (dep.collation.fold typed) := weight_le_of_fits (hiff.2 hstarts)
  have hlt := (weight_encode (trim typed).toList).2 hencoded
  rw [Collation.fold, weight_fold, weight_fold, weight_trim, form_encode] at hle
  omega

/-- An underscore of the text is replaced by another character. -/
def without_underscores (s : List Char) : List Char := s.map fun c => if c = '_' then 'x' else c

theorem fits_without_underscores (collation : Collation) {s : List Char} (h : '%' ∉ s) :
    fits (items_of (s.map collation.lower)) ((without_underscores s).map collation.lower) =
      true := by
  have haccepts : List.Forall₂ Item.Accepts ((s.map collation.lower).map item_of)
      ((without_underscores s).map collation.lower) := by
    rw [without_underscores, List.map_map, List.map_map, List.forall₂_map_left_iff,
      List.forall₂_map_right_iff, List.forall₂_same]
    intro c hc
    have hpercent : c ≠ '%' := by
      rintro rfl
      exact h hc
    by_cases hone : c = '_'
    · have hlower : collation.lower '_' = '_' := lower_self collation (by decide)
      simp [hone, hlower, item_of, Item.Accepts]
    · simp [hone, item_of_lower collation hpercent hone, Item.Accepts]
  simpa [items_of] using fits_append haccepts (fits_any [])

/-- A text with a wildcard in it, or with white space around it, finds another name. -/
theorem not_finds_kept {typed : String} (h : 2 ≤ utf16_length (trim typed).toList)
    (hkept : ∀ c ∈ (trim typed).toList, kept_in_form c = true)
    (hplain : ¬ ∀ c ∈ typed.toList, Plain c) : ¬ Finds dep typed := by
  refine not_finds dep (0, String.ofList (without_underscores (trim typed).toList)) h
    fun hiff => hplain ?_
  have hpercent : '%' ∉ (trim typed).toList := fun hmem =>
    absurd (hkept '%' hmem) (by decide)
  rw [form_encode_kept hkept, Collation.fold, String.toList_ofList, StartsWith] at hiff
  have hstarts := hiff.1 (fits_without_underscores dep.collation hpercent)
  rw [Collation.fold, Collation.fold, String.toList_ofList] at hstarts
  -- A prefix that is not shorter is the whole name, and nothing was trimmed.
  obtain ⟨before, after, hsplit, -⟩ := trim_split typed
  have hsum := congrArg List.length hsplit
  have hle := hstarts.length_le
  simp only [without_underscores, List.length_map, List.length_append] at hsum hle
  have hbefore : before = [] := List.length_eq_zero_iff.1 (by omega)
  have hafter : after = [] := List.length_eq_zero_iff.1 (by omega)
  rw [hbefore, hafter, List.nil_append, List.append_nil] at hsplit
  rw [hsplit] at hstarts ⊢
  have hsame := hstarts.eq_of_length (by simp [without_underscores])
  rw [without_underscores, List.map_map] at hsame
  intro c hc
  refine ((kept_in_form_iff c).1 (hkept c hc)).resolve_right ?_
  rintro rfl
  have hlower : dep.collation.lower '_' = dep.collation.lower 'x' := by
    simpa using List.map_inj_left.1 hsame '_' hc
  rw [lower_self dep.collation (by decide), eq_comm,
    dep.collation.lower_eq_iff (by decide)] at hlower
  exact absurd hlower (by decide)

/-- A search finds what was typed exactly when the text is made of ASCII letters, digits and
the signs `*`, `-` and `.`. -/
theorem search_finds_what_was_typed_iff {typed : String}
    (hlength : 2 ≤ utf16_length typed.toList) :
    Finds dep typed ↔ ∀ c ∈ typed.toList, Plain c := by
  refine ⟨fun hfinds => ?_, finds_plain dep hlength⟩
  by_contra hplain
  by_cases hshort : 2 ≤ utf16_length (trim typed).toList
  · by_cases hkept : ∀ c ∈ (trim typed).toList, kept_in_form c = true
    · exact not_finds_kept dep hshort hkept hplain hfinds
    · push Not at hkept
      exact not_finds_encoded dep hshort (by simpa using hkept) hfinds
  · -- The client makes no search.
    have hnone : dep.search [] typed 8 = none := by
      rw [Deployment.search, if_pos (by omega)]
    have hsome := hfinds [] 8 (by simp [Deployment.wanted])
    rw [hnone] at hsome
    cases hsome

/-- The case of ASCII letters alone. -/
theorem toLower_eq_iff {c d : Char} (h : has_no_case c = true) : d.toLower = c ↔ d = c := by
  by_cases hupper : 65 ≤ d.toNat ∧ d.toNat ≤ 90
  · have hall : ∀ k : Fin 26, has_no_case (Char.ofNat (65 + k)) = false ∧
        has_no_case (Char.ofNat (65 + k)).toLower = false := by decide
    have hd : Char.ofNat (65 + (d.toNat - 65)) = d := by
      rw [Nat.add_sub_cancel' hupper.1, Char.ofNat_toNat]
    have hcases := hall ⟨d.toNat - 65, by omega⟩
    simp only [hd] at hcases
    constructor <;> (rintro rfl; simp [hcases] at h)
  · have hlower : d.toLower = d := dif_neg fun hval => hupper ⟨hval.1, hval.2⟩
    rw [hlower]

/-- Services for which every token is the one of user 7. -/
def seven_services : Services :=
  { verify := fun _ => some 7, issue := fun _ => "", parse := fun _ => none }

theorem seven_signed_in : require_auth seven_services "Bearer t" = some 7 := by decide

/-- A server with a user who is signed in, and a database whose letters are those of ASCII. -/
def small : Deployment where
  setup := {
    services := seven_services
    blob_cfg := { account := "", key := "", container := "", generate_sas := fun _ _ => none }
    base64_encode := fun _ => ""
    spec_json := ""
    kSwaggerHtml := "" }
  gen := {}
  authorization := "Bearer t"
  user := 7
  signed_in := seven_signed_in
  collation := ⟨Char.toLower, toLower_eq_iff⟩
  others := loomic.http_answers.failing

/-- "al" is found, and "a_" is not, as far as its characters go. -/
theorem al_is_found_iff_it_is_plain :
    (Finds small "al" ↔ ∀ c ∈ "al".toList, Plain c) ∧
      (Finds small "a_" ↔ ∀ c ∈ "a_".toList, Plain c) :=
  ⟨search_finds_what_was_typed_iff small (by decide),
    search_finds_what_was_typed_iff small (by decide)⟩

/-- A user whose name is "ann lee" is not found under that name. -/
theorem ann_lee_is_not_found :
    ¬ Finds small "ann lee" ∧
      small.search [(1, "ann lee")] "ann lee" 8 = some (found []) := by
  have htrim : trim "ann lee" = "ann lee" := by decide
  refine ⟨not_finds_encoded small (by rw [htrim]; decide) ⟨' ', by rw [htrim]; decide, by decide⟩,
    ?_⟩
  rw [search_finds small _ 8 (by rw [htrim]; decide), htrim]
  exact congrArg (fun rows => some (found rows)) (by decide)

end loomic.user_search
