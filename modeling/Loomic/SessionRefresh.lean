-- The refresh of a session by an open chat (ChatWorkspace.tsx). The callers
-- share one request, and the session that it brings is seen by later callers
-- only when React has rendered it and has run the effect behind the render.
import Loomic.AuthHandler
import Loomic.Lib.Machine
import Loomic.StoredSession

open coroutines json_texts machines
open loomic.stored_session hiding step run Operation

namespace loomic.session_refresh

/-! ## The state -/

/-- Where a request to refresh stands. A reply is `none` when its status is one of an error. -/
inductive Stage
  | sent
  | served (reply : Option Tokens)
  | settled

/-- A run of the function that `refreshSession` shares among its callers. -/
structure Flight where
  token : String
  stage : Stage

/-- The stores, the state and the references of the component. `effect` is the value that the
effect behind the last render will write to `current`, which is `sessionRef.current`. `live` are
the refresh tokens in the table of the server. `seen` is not in the code: all that have been
there. -/
structure Chat where
  st : Stores
  session : Option Members
  rerender : Bool
  effect : Option (Option Members)
  current : Option Members
  refresh_promise : Bool
  flights : List Flight
  live : List String
  seen : List String

/-- What a session shows under a key. A property that is undefined is left out of the body. -/
def text_of (key : String) (session : Members) : String :=
  match session.lookup key with
  | some (.string s) => s
  | _ => ""

abbrev refresh_token_of (session : Members) : String := text_of "refresh_token" session

/-! ## The functions -/

def Chat.set_session (s : Chat) (session : Option Members) : Chat :=
  { s with session := session, rerender := true }

def Chat.expire_session (s : Chat) : Chat :=
  { s with
    st := clear_stored_session
    current := none
    refresh_promise := false }.set_session none

/-- A caller joins the request that is under way, or starts one. -/
def Chat.refresh_session (s : Chat) : Chat :=
  match s.current with
  | none => s.expire_session
  | some current =>
    if s.refresh_promise then s
    else { s with
      flights := s.flights ++ [⟨refresh_token_of current, .sent⟩]
      refresh_promise := true }

def TOKEN_REFRESH_BUFFER_MS : Int := 5 * 60000

/-- The token has an expiry, and it is near. -/
def is_near (decode_jwt_expiry : String → Option Int) (now : Int) (current : Members) : Bool :=
  match decode_jwt_expiry (text_of "access_token" current) with
  | none => false
  | some exp => exp ≠ 0 && exp * 1000 - now ≤ TOKEN_REFRESH_BUFFER_MS

def Chat.ensure_fresh_session (decode_jwt_expiry : String → Option Int) (now : Int) (s : Chat) :
    Chat :=
  match s.current with
  | none => s.expire_session
  | some current => if is_near decode_jwt_expiry now current then s.refresh_session else s

/-- What the shared function does with the reply. -/
def Chat.receive (decode_jwt_subject : String → Subject) (built built' : ClientId) (s : Chat) :
    Option Tokens → Chat
  | none => s.expire_session
  | some tokens =>
    match update_stored_session_tokens decode_jwt_subject built built' tokens s.st with
    | (st, none) => { s with st := st }.expire_session
    | (st, some next) => { s with st := st }.set_session (some next)

/-- `POST /auth/refresh` takes the token out of the table and puts another one in. -/
def Chat.serve (s : Chat) (token : String) (next : Tokens) : Option Tokens × Chat :=
  if token ∈ s.live then
    (some next, { s with
      live := s.live.filter (· ≠ token) ++ [next.refresh_token]
      seen := next.refresh_token :: s.seen })
  else (none, s)

/-! ## The runs -/

/-- `serve` has the tokens that the server makes, and whether it fails. A request can be lost on
its way to the server or back. -/
inductive Label
  | refresh
  | ensure (now : Int)
  | serve (i : Nat) (next : Tokens) (fails : Bool)
  | lose (i : Nat)
  | settle (i : Nat) (built built' : ClientId)
  | finish (i : Nat)
  | render
  | effect

def Chat.set_stage (s : Chat) (i : Nat) (token : String) (stage : Stage) : Chat :=
  { s with flights := s.flights.set i ⟨token, stage⟩ }

section Machine

variable (decode_jwt_subject : String → Subject) (decode_jwt_expiry : String → Option Int)

/-- A render runs the effect of the render before it. The tokens that the server makes are
new. -/
def Chat.step (s : Chat) : Label → Option Chat
  | .refresh => some s.refresh_session
  | .ensure now => some (s.ensure_fresh_session decode_jwt_expiry now)
  | .serve i next fails =>
    match s.flights[i]? with
    | some ⟨token, .sent⟩ =>
      if next.refresh_token ∈ s.seen then none
      else if fails then some (s.set_stage i token (.served none))
      else
        let (reply, s) := s.serve token next
        some (s.set_stage i token (.served reply))
    | _ => none
  | .lose i =>
    match s.flights[i]? with
    | some ⟨token, .sent⟩ | some ⟨token, .served _⟩ => some (s.set_stage i token .settled)
    | _ => none
  | .settle i built built' =>
    match s.flights[i]? with
    | some ⟨token, .served reply⟩ =>
      some ((s.set_stage i token .settled).receive decode_jwt_subject built built' reply)
    | _ => none
  | .finish i =>
    match s.flights[i]? with
    | some ⟨_, .settled⟩ =>
      some { s with flights := s.flights.eraseIdx i, refresh_promise := false }
    | _ => none
  | .render => some { s with
      current := s.effect.getD s.current
      effect := if s.rerender then some s.session else none
      rerender := false }
  | .effect => s.effect.map fun session => { s with current := session, effect := none }

/-- The chat is opened by a user who has signed in. -/
structure Opening where
  session : Members
  login : Login
  normal : Normal decode_jwt_subject session
  shows : Shows session login

def Opening.chat (o : Opening decode_jwt_subject) : Chat where
  st := put o.login.persisted (text o.session)
  session := some o.session
  rerender := false
  effect := none
  current := some o.session
  refresh_promise := false
  flights := []
  live := [o.login.refresh_token]
  seen := [o.login.refresh_token]

def chat (o : Opening decode_jwt_subject) : Machine Chat Label where
  start := o.chat
  step := Chat.step decode_jwt_subject decode_jwt_expiry

end Machine

/-! ## The law -/

/-- The user is signed in, and his refresh token is the one that the server expects, or the reply
with that one is on its way. No request is refused. -/
structure SignedIn (s : Chat) : Prop where
  session : s.session.isSome = true
  sent : ∀ f ∈ s.flights, f.stage = .sent → f.token ∈ s.live
  accepted : ∀ f ∈ s.flights, f.stage ≠ .served none
  held : (∃ m ∈ s.session, refresh_token_of m ∈ s.live) ∨
    ∃ f ∈ s.flights, ∃ next, f.stage = .served (some next)

/-- A request is started with the latest session. The server does not fail, and no reply is
lost. -/
def Prompt (decode_jwt_expiry : String → Option Int) (s : Chat) : Label → Prop
  | .refresh => s.refresh_promise = false → s.current = s.session
  | .ensure now =>
    (∃ m ∈ s.current, is_near decode_jwt_expiry now m) → s.refresh_promise = false →
      s.current = s.session
  | .serve _ _ fails => fails = false
  | .lose i => ∀ f ∈ s.flights[i]?, f.stage = .sent
  | _ => True

/-! ## The server -/

section Server

open loomic.auth_handler loomic.frame loomic.http_server

/-- What a table with these tokens of a user answers. The other calls are not made. -/
def table_answers (live : List String) (uid : UserId) :
    Answers AuthCall AuthCall.Answer := fun _ call =>
  match call with
  | .select_refresh_token token => some (if token ∈ live then some uid else none)
  | .rotate_refresh_token _ _ _ => some ()
  | .verify _ _ => false
  | .select_user _ _ | .hash _ | .insert_user _ _ _ _ | .select_credentials _
  | .insert_refresh_token _ _ | .delete_refresh_token _ _ => none

/-- The handler of the server accepts the tokens that `serve` does, and its reply carries the new
token. -/
theorem serve_eq_refresh (services : Services) (gen : Generated) {req : Request}
    {body : json.Json} {token : String} (hbody : services.parse req.body = some body)
    (htoken : body.value_string "refresh_token" = some token) (hne : token ≠ "")
    (uid : UserId) (s : Chat) (next : Tokens) :
    (refresh services gen req []).run (table_answers s.live uid) =
      some (match (s.serve token next).1 with
        | some _ => tokens (services.issue uid) gen.refresh_token
        | none => make_error .unauthorized "invalid or expired token") := by
  unfold refresh with_body with_value Chat.serve
  rw [hbody]
  dsimp only
  rw [htoken]
  dsimp only [Coroutine.of]
  rw [if_neg hne]
  unfold refresh_select
  rw [run_await]
  by_cases hlive : token ∈ s.live
  · simp only [table_answers, hlive, if_true]
    rfl
  · simp only [table_answers, hlive, if_false]
    rfl

end Server

/-! ## The invariant -/

/-- The reference shows the session, and no render is awaited. -/
structure Shown (s : Chat) (session : Members) : Prop where
  current : s.current = some session
  effect : s.effect = none
  rerender : s.rerender = false

/-- Where the one request stands, and whether the token of the session is in the table. -/
inductive Phase (s : Chat) (session : Members) : Prop
  | idle (hflights : s.flights = []) (hpromise : s.refresh_promise = false)
    (hlive : refresh_token_of session ∈ s.live)
  | sent (hflights : s.flights = [⟨refresh_token_of session, .sent⟩])
    (hpromise : s.refresh_promise = true) (hshown : Shown s session)
    (hlive : refresh_token_of session ∈ s.live)
  | served (next : Tokens) (token : String) (hflights : s.flights = [⟨token, .served (some next)⟩])
    (hpromise : s.refresh_promise = true) (hshown : Shown s session)
    (hnext : next.refresh_token ∈ s.live) (hgone : refresh_token_of session ∉ s.live)
  | settled (token : String) (hflights : s.flights = [⟨token, .settled⟩])
    (hpromise : s.refresh_promise = true) (hlive : refresh_token_of session ∈ s.live)

/-- The stores hold the session. The reference shows it, or it shows one whose token is gone. -/
structure Sound (decode_jwt_subject : String → Subject) (s : Chat) : Prop where
  kept : ∃ session login, s.session = some session ∧ Normal decode_jwt_subject session ∧
    Shows session login ∧ s.st = put login.persisted (text session) ∧ Phase s session ∧
    ∃ c, s.current = some c ∧ refresh_token_of c ∈ s.seen ∧
      (Shown s session ∨ refresh_token_of c ∉ s.live)
  effect : ∀ v ∈ s.effect, v = s.session ∧ s.rerender = false
  live : ∀ token ∈ s.live, token ∈ s.seen

section Steps

variable {decode_jwt_subject : String → Subject} {decode_jwt_expiry : String → Option Int}
  {s s' : Chat}

theorem refresh_token_of_shows {session : Members} {login : Login} (h : Shows session login) :
    refresh_token_of session = login.refresh_token := by
  unfold refresh_token_of text_of
  rw [h.refresh_token]

theorem sound_opening (o : Opening decode_jwt_subject) : Sound decode_jwt_subject o.chat where
  kept := by
    have hmem : refresh_token_of o.session ∈ [o.login.refresh_token] := by
      rw [refresh_token_of_shows o.shows]
      exact List.mem_singleton_self _
    exact ⟨o.session, o.login, rfl, o.normal, o.shows, rfl, .idle rfl rfl hmem, o.session, rfl,
      hmem, .inl ⟨rfl, rfl, rfl⟩⟩
  effect := fun _ h => nomatch h
  live := fun _ h => h

/-- What is known of the user. -/
theorem Sound.signed_in (h : Sound decode_jwt_subject s) : SignedIn s := by
  obtain ⟨session, login, hsession, -, -, -, hphase, -⟩ := h.kept
  have hsome : s.session.isSome = true := by rw [hsession]; rfl
  cases hphase with
  | idle hflights _ hlive =>
    refine ⟨hsome, ?_, ?_, .inl ⟨session, hsession, hlive⟩⟩ <;> simp [hflights]
  | sent hflights _ _ hlive =>
    refine ⟨hsome, ?_, ?_, .inl ⟨session, hsession, hlive⟩⟩
    · simp [hflights, hlive]
    · simp [hflights]
  | served next token hflights =>
    refine ⟨hsome, ?_, ?_, .inr ⟨_, by rw [hflights]; exact List.mem_singleton_self _, next, rfl⟩⟩
      <;> simp [hflights]
  | settled token hflights _ hlive =>
    refine ⟨hsome, ?_, ?_, .inl ⟨session, hsession, hlive⟩⟩ <;> simp [hflights]

/-- A call of `refreshSession` that joins changes nothing, and one that starts a request takes the
latest session. -/
theorem Sound.refresh (h : Sound decode_jwt_subject s)
    (hok : s.refresh_promise = false → s.current = s.session) :
    Sound decode_jwt_subject s.refresh_session := by
  obtain ⟨session, login, hsession, hnormal, hshows, hst, hphase, c, hc, hseen, hfresh⟩ := h.kept
  unfold Chat.refresh_session
  rw [hc]
  dsimp only
  split_ifs with hpromise
  · exact h
  · have heq := hok (Bool.eq_false_of_not_eq_true hpromise)
    obtain rfl : c = session := by
      rw [hc, hsession] at heq
      exact Option.some.inj heq
    cases hphase with
    | idle hflights _ hlive =>
      have hshown : Shown s c := hfresh.resolve_right (not_not_intro hlive)
      refine ⟨⟨c, login, hsession, hnormal, hshows, hst,
        .sent ?_ rfl ⟨rfl, hshown.effect, hshown.rerender⟩ hlive, c, rfl, hseen,
        .inl ⟨rfl, hshown.effect, hshown.rerender⟩⟩, h.effect, h.live⟩
      rw [hflights]
      rfl
    | sent _ htrue => exact absurd htrue hpromise
    | served _ _ _ htrue => exact absurd htrue hpromise
    | settled _ _ htrue => exact absurd htrue hpromise

theorem Sound.ensure (h : Sound decode_jwt_subject s) {now : Int}
    (hok : (∃ m ∈ s.current, is_near decode_jwt_expiry now m) → s.refresh_promise = false →
      s.current = s.session) :
    Sound decode_jwt_subject (s.ensure_fresh_session decode_jwt_expiry now) := by
  obtain ⟨_, _, _, _, _, _, _, c, hc, _⟩ := h.kept
  unfold Chat.ensure_fresh_session
  rw [hc]
  dsimp only
  split_ifs with hnear
  · exact h.refresh (hok ⟨c, hc, hnear⟩)
  · exact h

/-- There is one request at most. -/
theorem single_flight {f g : Flight} {i : Nat} (h : [f][i]? = some g) : i = 0 ∧ g = f := by
  rw [List.getElem?_singleton] at h
  split_ifs at h with hi
  cases h
  exact ⟨hi, rfl⟩

theorem Phase.flight {session : Members} (h : Phase s session) {i : Nat} {f : Flight}
    (hf : s.flights[i]? = some f) : i = 0 ∧ s.flights = [f] ∧ s.refresh_promise = true := by
  cases h with
  | idle hflights =>
    rw [hflights] at hf
    cases hf
  | sent hflights hpromise | served _ _ hflights hpromise | settled _ hflights hpromise =>
    rw [hflights] at hf
    obtain ⟨rfl, rfl⟩ := single_flight hf
    exact ⟨rfl, hflights, hpromise⟩

theorem Sound.serve (h : Sound decode_jwt_subject s) {i : Nat} {token : String} {next : Tokens}
    (hf : s.flights[i]? = some ⟨token, .sent⟩) (hnew : next.refresh_token ∉ s.seen) :
    Sound decode_jwt_subject ((s.serve token next).2.set_stage i token
      (.served (s.serve token next).1)) := by
  obtain ⟨session, login, hsession, hnormal, hshows, hst, hphase, c, hc, hseen, hfresh⟩ := h.kept
  obtain ⟨rfl, hone, _⟩ := hphase.flight hf
  cases hphase with
  | idle hflights => simp [hflights] at hone
  | served _ _ hflights => simp [hflights] at hone
  | settled _ hflights => simp [hflights] at hone
  | sent hflights hpromise hshown hlive =>
    obtain rfl : refresh_token_of session = token := by simpa [hflights] using hone
    have hother : ∀ t ∈ s.seen, t ≠ next.refresh_token := by
      rintro t ht rfl
      exact hnew ht
    unfold Chat.serve
    rw [if_pos hlive]
    have hshown' : Shown (({ s with
        live := s.live.filter (· ≠ refresh_token_of session) ++ [next.refresh_token]
        seen := next.refresh_token :: s.seen } : Chat).set_stage 0 (refresh_token_of session)
          (.served (some next))) session := ⟨hshown.current, hshown.effect, hshown.rerender⟩
    refine ⟨⟨session, login, hsession, hnormal, hshows, hst,
      .served next (refresh_token_of session) ?_ hpromise hshown' ?_ ?_, c, hc,
      List.mem_cons_of_mem _ hseen, .inl hshown'⟩, h.effect, ?_⟩
    · simp [Chat.set_stage, hflights]
    · simp [Chat.set_stage]
    · simpa [Chat.set_stage] using hother _ (h.live _ hlive)
    · intro t ht
      simp only [Chat.set_stage, List.mem_append, List.mem_filter, List.mem_cons,
        List.not_mem_nil, or_false] at ht ⊢
      exact ht.elim (fun ht => .inr (h.live t ht.1)) .inl

/-- A request that is lost on its way to the server leaves the table as it is. -/
theorem Sound.lose (h : Sound decode_jwt_subject s) {i : Nat} {token : String}
    (hf : s.flights[i]? = some ⟨token, .sent⟩) :
    Sound decode_jwt_subject (s.set_stage i token .settled) := by
  obtain ⟨session, login, hsession, hnormal, hshows, hst, hphase, c, hc, hseen, hfresh⟩ := h.kept
  obtain ⟨rfl, hone, hpromise⟩ := hphase.flight hf
  have hlive : refresh_token_of session ∈ s.live := by
    cases hphase with
    | idle _ _ hlive | sent _ _ _ hlive | settled _ _ _ hlive => exact hlive
    | served _ _ hflights => simp [hflights] at hone
  refine ⟨⟨session, login, hsession, hnormal, hshows, hst, .settled token ?_ hpromise hlive, c, hc,
    hseen, hfresh.imp (fun hs => ⟨hs.current, hs.effect, hs.rerender⟩) id⟩, h.effect, h.live⟩
  simp [Chat.set_stage, hone]

/-- The reply brings the session that is next. -/
theorem Sound.settle (h : Sound decode_jwt_subject s) {i : Nat} {token : String}
    {reply : Option Tokens} (hf : s.flights[i]? = some ⟨token, .served reply⟩)
    (built built' : ClientId) :
    Sound decode_jwt_subject
      ((s.set_stage i token .settled).receive decode_jwt_subject built built' reply) := by
  obtain ⟨session, login, hsession, hnormal, hshows, hst, hphase, c, hc, hseen, -⟩ := h.kept
  obtain ⟨rfl, hone, _⟩ := hphase.flight hf
  cases hphase with
  | idle hflights => simp [hflights] at hone
  | sent hflights => simp [hflights] at hone
  | settled _ hflights => simp [hflights] at hone
  | served next _ hflights hpromise hshown hnext hgone =>
    obtain rfl : some next = reply := by
      rw [hflights] at hone
      cases hone
      rfl
    obtain ⟨session', hupdate, hnormal', hshows'⟩ := update_put built built' next hnormal hshows
    have hlive : refresh_token_of session' ∈ s.live := by
      rw [refresh_token_of_shows hshows']
      exact hnext
    have hreceive : (s.set_stage 0 token .settled).receive decode_jwt_subject built built'
        (some next) = ({ s.set_stage 0 token .settled with
          st := put login.persisted (text session') }).set_session (some session') := by
      unfold Chat.receive
      dsimp only [Chat.set_stage]
      rw [hst, hupdate]
    rw [hreceive]
    obtain rfl : session = c := Option.some.inj (hshown.current.symm.trans hc)
    refine ⟨⟨session', login.with_tokens next, rfl, hnormal', hshows', rfl,
      .settled token ?_ hpromise hlive, session, hc, hseen, .inr hgone⟩, ?_, h.live⟩
    · simp [Chat.set_session, Chat.set_stage, hone]
    · intro v hv
      dsimp only [Chat.set_session, Chat.set_stage] at hv
      rw [hshown.effect] at hv
      cases hv

/-- The shared promise is given up when its request has come to its end. -/
theorem Sound.finish (h : Sound decode_jwt_subject s) {i : Nat} {token : String}
    (hf : s.flights[i]? = some ⟨token, .settled⟩) :
    Sound decode_jwt_subject
      { s with flights := s.flights.eraseIdx i, refresh_promise := false } := by
  obtain ⟨session, login, hsession, hnormal, hshows, hst, hphase, c, hc, hseen, hfresh⟩ := h.kept
  obtain ⟨rfl, hone, _⟩ := hphase.flight hf
  have hlive : refresh_token_of session ∈ s.live := by
    cases hphase with
    | idle _ _ hlive | sent _ _ _ hlive | settled _ _ _ hlive => exact hlive
    | served _ _ hflights => simp [hflights] at hone
  refine ⟨⟨session, login, hsession, hnormal, hshows, hst, .idle ?_ rfl hlive, c, hc, hseen,
    hfresh.imp (fun hs => ⟨hs.current, hs.effect, hs.rerender⟩) id⟩, h.effect, h.live⟩
  rw [hone]
  rfl

theorem Phase.of_same {session : Members} (h : Phase s session) (hflights : s'.flights = s.flights)
    (hpromise : s'.refresh_promise = s.refresh_promise) (hlive : s'.live = s.live)
    (hshown : Shown s session → Shown s' session) : Phase s' session := by
  cases h with
  | idle hf hp hl => exact .idle (hflights.trans hf) (hpromise.trans hp) (hlive ▸ hl)
  | sent hf hp hs hl =>
    exact .sent (hflights.trans hf) (hpromise.trans hp) (hshown hs) (hlive ▸ hl)
  | served next token hf hp hs hn hg =>
    exact .served next token (hflights.trans hf) (hpromise.trans hp) (hshown hs) (hlive ▸ hn)
      (hlive ▸ hg)
  | settled token hf hp hl =>
    exact .settled token (hflights.trans hf) (hpromise.trans hp) (hlive ▸ hl)

/-- When an effect is awaited, the token of the session is in the table. -/
theorem Sound.live_of_effect (h : Sound decode_jwt_subject s) {v : Option Members}
    (hv : s.effect = some v) :
    s.rerender = false ∧ v = s.session ∧ ∃ session, s.session = some session ∧
      refresh_token_of session ∈ s.live := by
  obtain ⟨rfl, hrerender⟩ := h.effect v hv
  obtain ⟨session, _, hsession, _, _, _, hphase, _⟩ := h.kept
  refine ⟨hrerender, rfl, session, hsession, ?_⟩
  cases hphase with
  | idle _ _ hlive | settled _ _ _ hlive => exact hlive
  | sent _ _ hshown | served _ _ _ _ hshown =>
    rw [hshown.effect] at hv
    cases hv

/-- The effect of a render writes the session. -/
theorem Sound.effect_run (h : Sound decode_jwt_subject s) {v : Option Members}
    (hv : s.effect = some v) :
    Sound decode_jwt_subject { s with current := v, effect := none } := by
  obtain ⟨hrerender, rfl, m, hm, hlive⟩ := h.live_of_effect hv
  obtain ⟨session, login, hsession, hnormal, hshows, hst, hphase, -⟩ := h.kept
  obtain rfl : session = m := Option.some.inj (hsession.symm.trans hm)
  have hshown : Shown { s with current := s.session, effect := none } session :=
    ⟨hsession, rfl, hrerender⟩
  exact ⟨⟨session, login, hsession, hnormal, hshows, hst,
    hphase.of_same rfl rfl rfl fun _ => hshown, session, hsession, h.live _ hlive, .inl hshown⟩,
    (fun _ hv => nomatch hv), h.live⟩

/-- A render without an effect before it. -/
theorem Sound.render (h : Sound decode_jwt_subject s) :
    Sound decode_jwt_subject
      { s with effect := if s.rerender then some s.session else none, rerender := false } := by
  obtain ⟨session, login, hsession, hnormal, hshows, hst, hphase, c, hc, hseen, hfresh⟩ := h.kept
  have hshown : Shown s session → Shown
      { s with effect := if s.rerender then some s.session else none, rerender := false } session :=
    fun hs => ⟨hs.current, by rw [hs.rerender]; rfl, rfl⟩
  refine ⟨⟨session, login, hsession, hnormal, hshows, hst, hphase.of_same rfl rfl rfl hshown, c,
    hc, hseen, hfresh.imp hshown id⟩, ?_, h.live⟩
  intro v hv
  dsimp only at hv
  split_ifs at hv
  · exact ⟨(Option.some.inj hv).symm, rfl⟩
  · cases hv

/-- A step that meets the condition keeps the invariant. -/
theorem sound_step {a : Label} (h : Sound decode_jwt_subject s)
    (hok : Prompt decode_jwt_expiry s a)
    (hstep : s.step decode_jwt_subject decode_jwt_expiry a = some s') :
    Sound decode_jwt_subject s' := by
  cases a with
  | refresh =>
    obtain rfl := Option.some.inj hstep
    exact h.refresh hok
  | ensure now =>
    obtain rfl := Option.some.inj hstep
    exact h.ensure hok
  | serve i next fails =>
    obtain rfl : fails = false := hok
    unfold Chat.step at hstep
    dsimp only at hstep
    split at hstep
    · rename_i token hf
      rw [if_neg Bool.false_ne_true] at hstep
      split_ifs at hstep with hnew
      obtain rfl := Option.some.inj hstep
      exact h.serve hf hnew
    · cases hstep
  | lose i =>
    unfold Chat.step at hstep
    dsimp only at hstep
    split at hstep
    · rename_i token hf
      obtain rfl := Option.some.inj hstep
      exact h.lose hf
    · rename_i token reply hf
      cases hok _ hf
    · cases hstep
  | settle i built built' =>
    unfold Chat.step at hstep
    dsimp only at hstep
    split at hstep
    · rename_i token reply hf
      obtain rfl := Option.some.inj hstep
      exact h.settle hf built built'
    · cases hstep
  | finish i =>
    unfold Chat.step at hstep
    dsimp only at hstep
    split at hstep
    · rename_i token hf
      obtain rfl := Option.some.inj hstep
      exact h.finish hf
    · cases hstep
  | render =>
    obtain rfl := Option.some.inj hstep
    cases heffect : s.effect with
    | none => exact h.render
    | some v =>
      have hrun := (h.effect_run heffect).render
      exact hrun
  | effect =>
    obtain ⟨v, hv, rfl⟩ := Option.map_eq_some_iff.mp hstep
    exact h.effect_run hv

/-- A call that starts a request with an older session is one that is refused. -/
theorem Sound.prompt_of_signed_in (h : Sound decode_jwt_subject s)
    (hs : SignedIn s.refresh_session) (hpromise : s.refresh_promise = false) :
    s.current = s.session := by
  obtain ⟨session, _, hsession, _, _, _, _, c, hc, _, hfresh⟩ := h.kept
  rcases hfresh with hshown | hgone
  · rw [hshown.current, hsession]
  · refine absurd (hs.sent ⟨refresh_token_of c, .sent⟩ ?_ rfl) ?_
    · simp [Chat.refresh_session, hc, hpromise]
    · simpa [Chat.refresh_session, hc, hpromise] using hgone

/-- A reply that is lost leaves the session with a token that is gone. -/
theorem Sound.sent_of_signed_in (h : Sound decode_jwt_subject s) {i : Nat} {f : Flight}
    (hf : s.flights[i]? = some f) (hs : SignedIn (s.set_stage i f.token .settled))
    (hstage : f.stage ≠ .settled) : f.stage = .sent := by
  obtain ⟨session, _, hsession, _, _, _, hphase, _⟩ := h.kept
  obtain ⟨rfl, hone, _⟩ := hphase.flight hf
  cases hphase with
  | idle hflights => simp [hflights] at hone
  | sent hflights =>
    rw [hflights] at hone
    cases hone
    rfl
  | settled _ hflights =>
    rw [hflights] at hone
    cases hone
    exact absurd rfl hstage
  | served next token hflights _ _ _ hgone =>
    rcases hs.held with ⟨m, hm, hlive⟩ | ⟨g, hg, next', hnext⟩
    · obtain rfl : session = m := Option.some.inj (hsession.symm.trans hm)
      exact absurd hlive hgone
    · dsimp only [Chat.set_stage] at hg
      rw [hone, List.set_cons_zero, List.mem_singleton] at hg
      rw [hg] at hnext
      cases hnext

theorem prompt_of_step {a : Label} (h : Sound decode_jwt_subject s)
    (hstep : s.step decode_jwt_subject decode_jwt_expiry a = some s') (hs : SignedIn s') :
    Prompt decode_jwt_expiry s a := by
  cases a with
  | refresh =>
    obtain rfl := Option.some.inj hstep
    exact h.prompt_of_signed_in hs
  | ensure now =>
    rintro ⟨c, hc, hnear⟩
    obtain rfl := Option.some.inj hstep
    have hrefresh : s.ensure_fresh_session decode_jwt_expiry now = s.refresh_session := by
      unfold Chat.ensure_fresh_session
      rw [hc]
      dsimp only
      rw [if_pos hnear]
    rw [hrefresh] at hs
    exact h.prompt_of_signed_in hs
  | serve i next fails =>
    unfold Chat.step at hstep
    dsimp only at hstep
    split at hstep
    · rename_i token hf
      cases fails with
      | false => rfl
      | true =>
        split_ifs at hstep with hnew hfails
        · obtain rfl := Option.some.inj hstep
          have hlt := (List.getElem?_eq_some_iff.mp hf).1
          exact absurd rfl (hs.accepted _ (List.mem_set hlt _))
        · exact absurd rfl hfails
    · cases hstep
  | lose i =>
    intro f hf
    rw [Option.mem_def] at hf
    unfold Chat.step at hstep
    dsimp only at hstep
    rw [hf] at hstep
    obtain ⟨token, stage⟩ := f
    cases stage with
    | sent => rfl
    | served reply =>
      obtain rfl := Option.some.inj hstep
      exact h.sent_of_signed_in hf hs (by simp)
    | settled => cases hstep
  | _ => trivial

end Steps

/-! ## Every run -/

/-- In every run the user stays signed in, with the token that the server expects and with no
request refused, exactly when each request is started with the latest session, no reply is lost
and the server does not fail. -/
theorem the_user_stays_signed_in_iff_requests_are_prompt (decode_jwt_subject : String → Subject)
    (decode_jwt_expiry : String → Option Int) (o : Opening decode_jwt_subject) {as : List Label}
    {s : Chat} (hr : (chat decode_jwt_subject decode_jwt_expiry o).run as = some s) :
    (∀ bs s', bs <+: as → (chat decode_jwt_subject decode_jwt_expiry o).run bs = some s' →
      SignedIn s') ↔
      (chat decode_jwt_subject decode_jwt_expiry o).Meets (Prompt decode_jwt_expiry) as :=
  Machine.always_iff_meets (sound_opening o) (fun _ _ _ h hok hstep => sound_step h hok hstep)
    (fun _ h => h.signed_in) (fun _ _ _ h hstep hs => prompt_of_step h hstep hs) hr

/-! ## A small chat -/

def small_session : Members :=
  [("access_token", .string "a"), ("refresh_token", .string "r"), ("token_type", .string "Bearer"),
    ("persisted", .bool true), ("client_session_id", .string "c"), ("user_id", .string "1")]

def no_subject (_ : String) : Subject := ⟨.null, .null⟩

theorem small_session_normal : Normal no_subject small_session where
  valid := by
    refine .object (by decide) fun m hm => ?_
    simp only [small_session, List.mem_cons, List.not_mem_nil, or_false] at hm
    rcases hm with rfl | rfl | rfl | rfl | rfl | rfl <;> constructor
  client_session_id := ⟨.string "c", rfl, by decide⟩
  has_user_id := ⟨.string "1", rfl, rfl⟩

def small_opening : Opening no_subject where
  session := small_session
  login := ⟨"a", "r", "Bearer", true, .string "c"⟩
  normal := small_session_normal
  shows := ⟨rfl, rfl, rfl, rfl, rfl⟩

theorem a_prompt_request_is_served : ∃ s, (chat no_subject (fun _ => none) small_opening).run
    [.refresh, .serve 0 ⟨"a'", "r'", none⟩ false] = some s ∧ SignedIn s :=
  ⟨_, rfl, (@the_user_stays_signed_in_iff_requests_are_prompt no_subject (fun _ => none)
    small_opening [.refresh, .serve 0 ⟨"a'", "r'", none⟩ false] _ rfl).mpr
      ⟨fun _ => rfl, fun _ _ => ⟨rfl, fun _ _ => trivial⟩⟩ _ _ (List.prefix_refl _) rfl⟩

end loomic.session_refresh
