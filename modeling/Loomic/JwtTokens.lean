-- The access tokens: JwtService issues and verifies them, and the page and the CLI
-- read the user and the expiry from them without a key.
import Loomic.BrowserTexts
import Loomic.Lib.Base64
import Loomic.SessionRefresh

open json_texts
open loomic.browser_texts (decode_utf8 utf8 utf8_cons)
open loomic.chat_frames (decode_bytes)
open loomic.session_refresh (is_near text_of)
open loomic.stored_session (Members)

namespace loomic.jwt_tokens

/-! ## JwtService -/

/-- What JwtService uses of jwt-cpp, with HS256. A token is three texts of base64url, and the
second one is the claims in JSON. The times are in milliseconds. -/
structure JwtCpp where
  sign : String → Members → String
  verified : String → Nat → String → Option Members
  compact : ∀ secret claims, ∃ header signature : List UInt8, (sign secret claims).toList =
    base64.url.encode header ++
      '.' :: (base64.url.encode (utf8 (stringify (.object claims))) ++
        '.' :: base64.url.encode signature)
  verified_sign : ∀ (secret : String) (now : Nat) (claims : Members) (iat exp : Nat),
    Value.Valid (.object claims) → claims.lookup "iss" = some (.string "loomic") →
    claims.lookup "iat" = some (.number (.of_int iat)) →
    claims.lookup "exp" = some (.number (.of_int exp)) →
    verified secret now (sign secret claims) =
      if iat * 1000 ≤ now ∧ now ≤ exp * 1000 then some claims else none

/-- A day, as AuthHandler passes it. -/
def ttl : Nat := 24 * 60 * 60

/-- The second in which a token that is issued now expires. -/
def expires_at (now : Nat) : Nat := (now + ttl * 1000) / 1000

/-- The claims in the order of their names. A time becomes whole seconds. -/
def claims (uid : Int64) (now : Nat) : Members :=
  [("exp", .number (.of_int (expires_at now))),
    ("iat", .number (.of_int (now / 1000 : Nat))), ("iss", .string "loomic"),
    ("sub", .string (toString uid.toInt))]

def is_space (c : Char) : Bool := c = ' ' || (9 ≤ c.toNat && c.toNat ≤ 13)

/-- `std::stoll`: blanks, a sign and digits. `none` is an exception. -/
def stoll (s : List Char) : Option Int :=
  let s := s.dropWhile is_space
  let negative := s.head? = some '-'
  let s := if s.head? = some '-' ∨ s.head? = some '+' then s.tail else s
  let digits := s.takeWhile Char.isDigit
  let n : Int := Nat.ofDigitChars 10 digits 0
  let n := if negative then -n else n
  if digits = [] then none else if -2 ^ 63 ≤ n ∧ n < 2 ^ 63 then some n else none

namespace JwtService

def issue (jwt : JwtCpp) (secret : String) (uid : Int64) (now : Nat) : String :=
  jwt.sign secret (claims uid now)

/-- `get_subject` throws when there is none. -/
def verify (jwt : JwtCpp) (secret : String) (now : Nat) (token : String) : Option Int64 :=
  match (jwt.verified secret now token).bind fun decoded => decoded.lookup "sub" with
  | some (.string sub) => (stoll sub.toList).map Int64.ofInt
  | _ => none

end JwtService

/-! ## The page -/

def of_url (c : Char) : Char := if c = '-' then '+' else if c = '_' then '/' else c

/-- `atob` gives the octets as characters. `none` is an exception. -/
def decode_base64_url (segment : List Char) : Option (List Char) :=
  (base64.atob (base64.pad (segment.map of_url))).map fun octets =>
    octets.map fun octet => Char.ofNat octet.toNat

/-- `none` is null, of a token without payload or with one that is no JSON. -/
def decode_jwt_payload (token : String) : Option Value :=
  match token.toList.splitOn '.' with
  | _ :: payload :: _ => if payload = [] then none else (decode_base64_url payload).bind parse
  | _ => none

def decode_jwt_subject (token : String) : Value :=
  match decode_jwt_payload token with
  | some (.object members) => (members.lookup "sub").getD .null
  | _ => .null

/-- A number without fraction and exponent. -/
def whole (n : Number) : Option Int :=
  match n.text with
  | '-' :: s => if s.all Char.isDigit then some (-(Nat.ofDigitChars 10 s 0 : Int)) else none
  | s => if s.all Char.isDigit then some (Nat.ofDigitChars 10 s 0 : Int) else none

/-- An expiry that is a whole number. -/
def decode_jwt_expiry (token : String) : Option Int :=
  match decode_jwt_payload token with
  | some (.object members) =>
    match members.lookup "exp" with
    | some (.number n) => whole n
    | _ => none
  | _ => none

/-! ## The CLI -/

/-- The payload of `_decode_jwt_subject`. `none` is an exception. -/
def cli_payload (jwt : String) : Option Members :=
  match jwt.toList.splitOn '.' with
  | [_, payload, _] =>
    match (base64.a2b_base64 (base64.pad (payload.map of_url))).bind fun octets =>
      parse (decode_bytes {} octets) with
    | some (.object members) => some members
    | _ => none
  | _ => none

/-- `str` of a subject that is a string. -/
def cli_decode_jwt_subject (jwt : String) : Option String :=
  match (cli_payload jwt).bind fun members => members.lookup "sub" with
  | some (.string sub) => some sub
  | _ => none

/-! ## The parts of a token -/

theorem of_url_char : ∀ v < 64, of_url (base64.url.char v) = base64.standard.char v := by decide

theorem url_char_ne_dot : ∀ v < 64, base64.url.char v ≠ '.' := by decide

/-- The two alphabets differ in what the readers replace. -/
theorem map_of_url (bs : List UInt8) :
    (base64.url.encode bs).map of_url = base64.standard.encode bs := by
  unfold base64.Alphabet.encode
  rw [List.map_map]
  exact List.map_congr_left fun v hv => of_url_char v (base64.sextets_lt bs v hv)

theorem dot_not_mem (bs : List UInt8) : '.' ∉ base64.url.encode bs := by
  intro h
  obtain ⟨v, hv, hchar, _⟩ := base64.value_of_mem base64.url h
  exact url_char_ne_dot v hv hchar.symm

theorem splitOn_compact (header payload signature : List UInt8) :
    (base64.url.encode header ++ '.' :: (base64.url.encode payload ++
      '.' :: base64.url.encode signature)).splitOn '.' =
    [base64.url.encode header, base64.url.encode payload, base64.url.encode signature] := by
  rw [List.splitOn_append_cons_self_of_not_mem (dot_not_mem header),
    List.splitOn_append_cons_self_of_not_mem (dot_not_mem payload),
    List.splitOn_eq_singleton (dot_not_mem signature)]

/-! ## The claims are ASCII -/

def Ascii (cs : List Char) : Prop := ∀ c ∈ cs, c.toNat < 128

theorem Ascii.append {cs ds : List Char} (hcs : Ascii cs) (hds : Ascii ds) :
    Ascii (cs ++ ds) := fun c hc => (List.mem_append.mp hc).elim (hcs c) (hds c)

theorem ascii_hex_digit : ∀ n < 16, (hex_digit n).toNat < 128 := by decide

theorem ascii_quote_char {c : Char} (h : c.toNat < 128) : Ascii (quote_char c) := by
  have hlow := ascii_hex_digit (c.toNat % 16) (by omega)
  have hhigh := ascii_hex_digit (c.toNat / 16) (by omega)
  unfold quote_char
  split_ifs
  all_goals simp [Ascii, h, hlow, hhigh]

theorem Ascii.quote {s : String} (h : Ascii s.toList) : Ascii (quote s) := by
  have hchars : Ascii (s.toList.flatMap quote_char) := by
    intro c hc
    obtain ⟨d, hd, hcd⟩ := List.mem_flatMap.mp hc
    exact ascii_quote_char (h d hd) c hcd
  intro c hc
  rcases List.mem_append.mp hc with hc | hc
  · rcases List.mem_cons.mp hc with rfl | hc
    · decide
    · exact hchars c hc
  · rw [List.mem_singleton.mp hc]
    decide

theorem ascii_digit {c : Char} (h : c.isDigit = true) : c.toNat < 128 := by
  have hle := (Char.isDigit_iff_toNat.mp h).2
  have hnine : '9'.toNat = 57 := rfl
  omega

theorem ascii_int (n : Int) : Ascii (toString n).toList := by
  have hdigits (m : Nat) : Ascii (Nat.toDigits 10 m) := fun c hc =>
    ascii_digit (isDigit_of_mem hc)
  intro c hc
  rw [← of_int_text] at hc
  cases n with
  | ofNat m => exact hdigits m c hc
  | negSucc m =>
    rcases List.mem_cons.mp hc with rfl | hc
    · decide
    · exact hdigits (m + 1) c hc

/-- The text of the claims. -/
theorem stringify_claims (uid : Int64) (now : Nat) : stringify (.object (claims uid now)) =
    '\x7b' :: (quote "exp" ++ ':' :: ((toString (expires_at now : Int)).toList ++ ',' ::
      (quote "iat" ++ ':' :: ((toString ((now / 1000 : Nat) : Int)).toList ++ ',' ::
        (quote "iss" ++ ':' :: (quote "loomic" ++ ',' ::
          (quote "sub" ++ ':' :: (quote (toString uid.toInt) ++ ['\x7d'])))))))) := by
  simp only [claims, stringify, stringify_members, of_int_text]

theorem Ascii.cons {c : Char} {cs : List Char} (hc : c.toNat < 128) (hcs : Ascii cs) :
    Ascii (c :: cs) := fun d hd => (List.mem_cons.mp hd).elim (fun h => h ▸ hc) (hcs d)

theorem ascii_claims (uid : Int64) (now : Nat) :
    Ascii (stringify (.object (claims uid now))) := by
  have hexp : Ascii (quote "exp") := .quote (by simp [Ascii])
  have hiat : Ascii (quote "iat") := .quote (by simp [Ascii])
  have hiss : Ascii (quote "iss") := .quote (by simp [Ascii])
  have hloomic : Ascii (quote "loomic") := .quote (by simp [Ascii])
  have hsub : Ascii (quote "sub") := .quote (by simp [Ascii])
  have hend : Ascii ['\x7d'] := by simp [Ascii]
  rw [stringify_claims]
  refine .cons (by decide) (hexp.append (.cons (by decide) ((ascii_int _).append ?_)))
  refine .cons (by decide) (hiat.append (.cons (by decide) ((ascii_int _).append ?_)))
  refine .cons (by decide) (hiss.append (.cons (by decide) (hloomic.append ?_)))
  exact .cons (by decide) (hsub.append (.cons (by decide) ((ascii_int _).quote.append hend)))

theorem valid_claims (uid : Int64) (now : Nat) : Value.Valid (.object (claims uid now)) := by
  refine .object (by simp [claims]) fun m hm => ?_
  simp only [claims, List.mem_cons, List.not_mem_nil, or_false] at hm
  rcases hm with rfl | rfl | rfl | rfl
  · exact .number _
  · exact .number _
  · exact .string _
  · exact .string _

/-! ## The readers -/

theorem encode_ascii : ∀ n < 128,
    (String.utf8EncodeChar (Char.ofNat n)).map (fun octet => Char.ofNat octet.toNat) =
      [Char.ofNat n] := by
  decide +kernel

/-- An ASCII text is the same octet by octet. -/
theorem octets_ascii {cs : List Char} (h : Ascii cs) :
    (utf8 cs).map (fun octet => Char.ofNat octet.toNat) = cs := by
  induction cs with
  | nil => rfl
  | cons c cs ih =>
    have hc := encode_ascii c.toNat (h c List.mem_cons_self)
    rw [Char.ofNat_toNat] at hc
    rw [utf8_cons, List.map_append, hc, ih fun d hd => h d (List.mem_cons_of_mem c hd)]
    rfl

section Payload

variable {v : Value} {token : String} {header signature : List UInt8}

theorem payload_ne_nil (hv : v.Valid) : base64.url.encode (utf8 (stringify v)) ≠ [] := by
  intro h
  have hbytes := base64.decode_encode base64.url (utf8 (stringify v))
  rw [h] at hbytes
  have htext := decode_utf8 (stringify v)
  rw [← Option.some.inj hbytes] at htext
  have hparse := parse_stringify hv
  rw [← htext] at hparse
  cases hparse

theorem decode_jwt_payload_of (hv : v.Valid) (hascii : Ascii (stringify v))
    (h : token.toList.splitOn '.' = [base64.url.encode header,
      base64.url.encode (utf8 (stringify v)), base64.url.encode signature]) :
    decode_jwt_payload token = some v := by
  have hoctets : decode_base64_url (base64.url.encode (utf8 (stringify v))) =
      some (stringify v) := by
    unfold decode_base64_url
    rw [map_of_url, base64.atob_pad_encode, Option.map_some, octets_ascii hascii]
  unfold decode_jwt_payload
  rw [h]
  change (if _ then _ else _) = _
  rw [if_neg (payload_ne_nil hv), hoctets, Option.bind_some, parse_stringify hv]

theorem cli_payload_of {members : Members} (hv : Value.Valid (.object members))
    (h : token.toList.splitOn '.' = [base64.url.encode header,
      base64.url.encode (utf8 (stringify (.object members))), base64.url.encode signature]) :
    cli_payload token = some members := by
  unfold cli_payload
  rw [h]
  change (match Option.bind (base64.a2b_base64 (base64.pad (List.map of_url _))) _ with
    | some (Value.object members) => some members
    | _ => none) = _
  rw [map_of_url, base64.a2b_pad_encode, Option.bind_some, decode_utf8, parse_stringify hv]

end Payload

/-! ## The integers -/

theorem toDigits_cons (n : Nat) : ∃ c cs, Nat.toDigits 10 n = c :: cs :=
  List.exists_cons_of_ne_nil Nat.toDigits_ne_nil

theorem ne_of_isDigit {c d : Char} (hc : c.isDigit = true) (hd : d.isDigit = false) : c ≠ d := by
  rintro rfl
  rw [hc] at hd
  cases hd

theorem whole_of_int (n : Nat) : whole (.of_int n) = some (n : Int) := by
  obtain ⟨c, cs, hcs⟩ := toDigits_cons n
  have hall : (Nat.toDigits 10 n).all Char.isDigit = true :=
    List.all_eq_true.mpr fun d hd => isDigit_of_mem hd
  have hminus : c ≠ '-' := ne_of_isDigit (isDigit_of_mem (hcs ▸ List.mem_cons_self)) (by decide)
  have htext : (Number.of_int n).text = Nat.toDigits 10 n := rfl
  unfold whole
  rw [htext]
  split
  · next s hs =>
    rw [hcs] at hs
    exact absurd (List.cons.inj hs).1 hminus
  · rw [if_pos hall, Nat.ofDigitChars_ten_toDigits]

section Digits

variable {c : Char} {cs : List Char} (hall : ∀ d ∈ c :: cs, d.isDigit = true)
include hall

theorem not_is_space : is_space c = false := by
  have hdigit := Char.isDigit_iff_toNat.mp (hall c List.mem_cons_self)
  have hzero : '0'.toNat = 48 := rfl
  have hblank : c ≠ ' ' := ne_of_isDigit (hall c List.mem_cons_self) (by decide)
  have hcontrol : ¬ (9 ≤ c.toNat ∧ c.toNat ≤ 13) := by omega
  simp [is_space, hblank]
  omega

theorem takeWhile_digits : (c :: cs).takeWhile Char.isDigit = c :: cs :=
  List.takeWhile_eq_self_iff.mpr hall

theorem stoll_unsigned {n : Int} (hn : n = Nat.ofDigitChars 10 (c :: cs) 0) (h : n < 2 ^ 63) :
    stoll (c :: cs) = some n := by
  have hhead : c ≠ '-' ∧ c ≠ '+' :=
    ⟨ne_of_isDigit (hall c List.mem_cons_self) (by decide),
      ne_of_isDigit (hall c List.mem_cons_self) (by decide)⟩
  have hdrop : (c :: cs).dropWhile is_space = c :: cs :=
    List.dropWhile_cons_of_neg (by simp [not_is_space hall])
  unfold stoll
  simp only [hdrop, List.head?_cons, Option.some.injEq, hhead.1, hhead.2, or_self, if_false,
    takeWhile_digits hall, ← hn, reduceCtorEq]
  rw [if_pos ⟨by omega, h⟩]

theorem stoll_negative {n : Int} (hn : n = -(Nat.ofDigitChars 10 (c :: cs) 0 : Int))
    (h : -2 ^ 63 ≤ n) : stoll ('-' :: c :: cs) = some n := by
  have hdrop : ('-' :: c :: cs).dropWhile is_space = '-' :: c :: cs := rfl
  unfold stoll
  simp only [hdrop, List.head?_cons, true_or, if_true, List.tail_cons, takeWhile_digits hall,
    ← hn, reduceCtorEq, if_false]
  rw [if_pos ⟨h, by omega⟩]

end Digits

/-- The digits, after a sign perhaps, are read to the end. -/
theorem stoll_text {n : Int} (hlow : -2 ^ 63 ≤ n) (hhigh : n < 2 ^ 63) :
    stoll (toString n).toList = some n := by
  rw [← of_int_text]
  cases n with
  | ofNat m =>
    obtain ⟨c, cs, hcs⟩ := toDigits_cons m
    have hvalue : (m : Int) = Nat.ofDigitChars 10 (c :: cs) 0 := by
      rw [← hcs, Nat.ofDigitChars_ten_toDigits]
    have hall : ∀ d ∈ c :: cs, d.isDigit = true := fun d hd => isDigit_of_mem (hcs ▸ hd)
    change stoll (Nat.toDigits 10 m) = _
    rw [hcs]
    exact stoll_unsigned hall hvalue hhigh
  | negSucc m =>
    obtain ⟨c, cs, hcs⟩ := toDigits_cons (m + 1)
    have hvalue : Int.negSucc m = -(Nat.ofDigitChars 10 (c :: cs) 0 : Int) := by
      rw [← hcs, Nat.ofDigitChars_ten_toDigits]
      rfl
    have hall : ∀ d ∈ c :: cs, d.isDigit = true := fun d hd => isDigit_of_mem (hcs ▸ hd)
    change stoll ('-' :: Nat.toDigits 10 (m + 1)) = _
    rw [hcs]
    exact stoll_negative hall hvalue hlow

/-! ## What the readers find -/

section Token

variable (jwt : JwtCpp) (secret : String) (uid : Int64) (now : Nat)

theorem token_parts : ∃ header signature : List UInt8,
    (JwtService.issue jwt secret uid now).toList.splitOn '.' =
      [base64.url.encode header,
        base64.url.encode (utf8 (stringify (.object (claims uid now)))),
        base64.url.encode signature] := by
  obtain ⟨header, signature, h⟩ := jwt.compact secret (claims uid now)
  exact ⟨header, signature, by rw [JwtService.issue, h, splitOn_compact]⟩

theorem decode_jwt_payload_issue :
    decode_jwt_payload (JwtService.issue jwt secret uid now) = some (.object (claims uid now)) := by
  obtain ⟨header, signature, h⟩ := token_parts jwt secret uid now
  exact decode_jwt_payload_of (valid_claims uid now) (ascii_claims uid now) h

theorem cli_payload_issue :
    cli_payload (JwtService.issue jwt secret uid now) = some (claims uid now) := by
  obtain ⟨header, signature, h⟩ := token_parts jwt secret uid now
  exact cli_payload_of (valid_claims uid now) h

theorem lookup_sub : (claims uid now).lookup "sub" = some (.string (toString uid.toInt)) := rfl

theorem lookup_exp : (claims uid now).lookup "exp" = some (.number (.of_int (expires_at now))) :=
  rfl

theorem decode_jwt_subject_issue : decode_jwt_subject (JwtService.issue jwt secret uid now) =
    .string (toString uid.toInt) := by
  unfold decode_jwt_subject
  rw [decode_jwt_payload_issue]
  change ((claims uid now).lookup "sub").getD .null = _
  rw [lookup_sub, Option.getD_some]

theorem cli_decode_jwt_subject_issue :
    cli_decode_jwt_subject (JwtService.issue jwt secret uid now) = some (toString uid.toInt) := by
  unfold cli_decode_jwt_subject
  rw [cli_payload_issue, Option.bind_some, lookup_sub]

theorem decode_jwt_expiry_issue :
    decode_jwt_expiry (JwtService.issue jwt secret uid now) = some (expires_at now : Int) := by
  unfold decode_jwt_expiry
  rw [decode_jwt_payload_issue]
  change (match (claims uid now).lookup "exp" with
    | some (.number n) => whole n
    | _ => none) = _
  rw [lookup_exp]
  exact whole_of_int _

/-- The server takes a token from the second of its issue to its expiry. -/
theorem verify_issue (t : Nat) :
    JwtService.verify jwt secret t (JwtService.issue jwt secret uid now) =
      if now / 1000 * 1000 ≤ t ∧ t ≤ expires_at now * 1000 then some uid else none := by
  have hverified : jwt.verified secret t (JwtService.issue jwt secret uid now) = _ :=
    jwt.verified_sign secret t (claims uid now) (now / 1000) (expires_at now)
      (valid_claims uid now) rfl rfl rfl
  unfold JwtService.verify
  rw [hverified]
  by_cases h : now / 1000 * 1000 ≤ t ∧ t ≤ expires_at now * 1000
  · rw [if_pos h, if_pos h, Option.bind_some, lookup_sub]
    change (stoll (toString uid.toInt).toList).map Int64.ofInt = _
    rw [stoll_text (Int64.le_toInt uid) (Int64.toInt_lt uid), Option.map_some, Int64.ofInt_toInt]
  · rw [if_neg h, if_neg h]
    rfl

end Token

/-- Each reader finds the user that a token was issued for. The server takes the token for this
user exactly until the second that the page reads, so a session that the page does not refresh
is taken for five minutes more. -/
theorem each_token_speaks_for_its_user (jwt : JwtCpp) (secret : String) (uid : Int64)
    (now : Nat) (session : Members) (t t' : Nat)
    (htoken : text_of "access_token" session = JwtService.issue jwt secret uid now)
    (hnow : now ≤ t) (hlater : t ≤ t') :
    decode_jwt_subject (text_of "access_token" session) = .string (toString uid.toInt) ∧
      cli_decode_jwt_subject (text_of "access_token" session) = some (toString uid.toInt) ∧
      (∃ exp : Nat, decode_jwt_expiry (text_of "access_token" session) = some (exp : Int) ∧
        (JwtService.verify jwt secret t (text_of "access_token" session) = some uid ↔
          t ≤ exp * 1000)) ∧
      (is_near decode_jwt_expiry t session = false → t' ≤ t + 5 * 60000 →
        JwtService.verify jwt secret t' (text_of "access_token" session) = some uid) := by
  have hexpiry := decode_jwt_expiry_issue jwt secret uid now
  have hissued : ∀ u, now ≤ u → (JwtService.verify jwt secret u
      (JwtService.issue jwt secret uid now) = some uid ↔ u ≤ expires_at now * 1000) := by
    intro u hu
    rw [verify_issue]
    have hiat : now / 1000 * 1000 ≤ u := by omega
    simp [hiat]
  rw [htoken]
  refine ⟨decode_jwt_subject_issue jwt secret uid now,
    cli_decode_jwt_subject_issue jwt secret uid now,
    ⟨expires_at now, hexpiry, hissued t hnow⟩, fun hfar hsoon => ?_⟩
  refine (hissued t' (hnow.trans hlater)).mpr ?_
  unfold is_near at hfar
  rw [htoken, hexpiry] at hfar
  have hpos : expires_at now ≠ 0 := by
    unfold expires_at ttl
    omega
  have hbuffer : ¬ (expires_at now : Int) * 1000 - t ≤ 5 * 60000 := by
    simpa [hpos, session_refresh.TOKEN_REFRESH_BUFFER_MS] using hfar
  omega

/-! ## A token -/

def header : List UInt8 := utf8 "\x7b\"alg\":\"HS256\"\x7d".toList

/-- One signature is here: HS256 of a token for user 7, with the key "secret". -/
def signature (secret : String) (payload : List Char) : List UInt8 :=
  if secret = "secret" ∧ payload =
      "\x7b\"exp\":1700086400,\"iat\":1700000000,\"iss\":\"loomic\",\"sub\":\"7\"\x7d".toList then
    [26, 189, 224, 214, 149, 253, 101, 129, 56, 9, 181, 194, 32, 3, 193, 25, 247, 120, 165, 12,
      144, 180, 236, 51, 75, 221, 111, 234, 220, 7, 192, 195]
  else []

def sign (secret : String) (claims : Members) : String :=
  String.ofList (base64.url.encode header ++
    '.' :: (base64.url.encode (utf8 (stringify (.object claims))) ++
      '.' :: base64.url.encode (signature secret (stringify (.object claims)))))

def time (claims : Members) (key : String) : Option Int :=
  match claims.lookup key with
  | some (.number n) => whole n
  | _ => none

def is_valid (now : Nat) (claims : Members) : Bool :=
  text_of "iss" claims = "loomic" &&
    (time claims "iat").all (· * 1000 ≤ (now : Int)) &&
    (time claims "exp").all ((now : Int) ≤ · * 1000)

/-- The token is signed again. -/
def verified (secret : String) (now : Nat) (token : String) : Option Members :=
  (cli_payload token).filter fun claims => sign secret claims = token && is_valid now claims

def jwt_cpp : JwtCpp where
  sign := sign
  verified := verified
  compact secret claims := ⟨header, signature secret (stringify (.object claims)),
    String.toList_ofList⟩
  verified_sign secret now claims iat exp hvalid hiss hiat hexp := by
    have hpayload : cli_payload (sign secret claims) = some claims :=
      cli_payload_of hvalid (by rw [sign, String.toList_ofList, splitOn_compact])
    have htext : text_of "iss" claims = "loomic" := by rw [text_of, hiss]
    have hissued : time claims "iat" = some (iat : Int) := by
      rw [time, hiat]
      exact whole_of_int iat
    have hexpires : time claims "exp" = some (exp : Int) := by
      rw [time, hexp]
      exact whole_of_int exp
    unfold verified
    rw [hpayload, Option.filter_some, is_valid, htext, hissued, hexpires]
    have hiff : iat * 1000 ≤ now ∧ now ≤ exp * 1000 ↔
        (iat : Int) * 1000 ≤ now ∧ (now : Int) ≤ exp * 1000 := by omega
    simp only [hiff, decide_true, Option.all_some, Bool.true_and, Bool.and_eq_true,
      decide_eq_true_eq]

/-- A token of user 7 and the session that has it. The page need not refresh it an hour later. -/
theorem a_token_speaks_for_user_seven :
    JwtService.verify jwt_cpp "secret" 1700003900000
      (JwtService.issue jwt_cpp "secret" 7 1700000000000) = some 7 := by
  let session : Members :=
    [("access_token", .string (JwtService.issue jwt_cpp "secret" 7 1700000000000))]
  refine (each_token_speaks_for_its_user jwt_cpp "secret" 7 1700000000000 session 1700003600000
    1700003900000 rfl (by decide) (by decide)).2.2.2 ?_ (by decide)
  have hexpiry := decode_jwt_expiry_issue jwt_cpp "secret" 7 1700000000000
  have htoken : text_of "access_token" session =
    JwtService.issue jwt_cpp "secret" 7 1700000000000 := rfl
  rw [is_near, htoken, hexpiry]
  decide

end loomic.jwt_tokens
