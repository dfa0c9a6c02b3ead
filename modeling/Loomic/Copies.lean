-- The copies of a message at the server: nobody has two of them, and each was
-- sent by a user who had signed in, to those whom the routing names.
import Loomic.Lib.StoreForwardCopies
import Loomic.Delivery

open loomic.frame loomic.json loomic.routing loomic.session_run machines store_forward

namespace loomic.server

variable {ρ : Type} [DecidableEq ρ]

/-! ## One copy -/

/-- The messages in a place. -/
def Server.copies (w : Server ρ) : Place UserId ρ → List Item
  | .mailbox user_id => w.mail user_id
  | .posts s => messages (w.sessions s).posts
  | .queue s => messages (w.sessions s).queue.write_queue
  | .in_flight s => messages (w.sessions s).queue.in_flight.toList
  | .written s => messages (w.sessions s).written
  | .lost s => messages (w.sessions s).lost

/-- The user whose offline queue or session it is. -/
def Server.holder (w : Server ρ) : Place UserId ρ → UserId
  | .mailbox user_id => user_id
  | .posts s | .queue s | .in_flight s | .written s | .lost s => w.user s

omit [DecidableEq ρ] in
theorem content_view (w : Server ρ) : w.view.content = w.copies := by
  funext p
  cases p <;> rfl

omit [DecidableEq ρ] in
theorem place_user_view (w : Server ρ) : w.view.place_user = w.holder := by
  funext p
  cases p <;> rfl

/-! ## The frames of the clients -/

/-- A frame that brings a token. -/
def AnyEvent.presents : AnyEvent → Bytes → Prop
  | .tcp (.header _ _), token => token = []
  | .tcp (.payload buf _), token => token = buf
  | .ws (.text (some j)), token => ∃ text, j.value_string "token" = some text ∧ token = bytes text
  | _, _ => False

section Tcp

variable {verify : Bytes → Option UserId} {r : Run Session.Await} {ev : Session.Event Stored}

end Tcp

section WebSocket

variable {verify : Bytes → Option UserId} {r : Run WebSocketSession.Await}
  {ev : WebSocketSession.Event Stored}

end WebSocket

/-- The header whose payload is awaited. -/
def AnyRun.awaited : AnyRun → Option FrameHeader
  | .tcp { await := .chat_payload hdr, .. } => some hdr
  | _ => none

/-- What a segment of either kind takes from the frames of its client. -/
structure Takes (verify : Bytes → Option UserId) (r : AnyRun) (ev : AnyEvent) (r' : AnyRun)
    (es : List (Effect Stored)) : Prop where
  token : ∀ uid, .registry_insert uid ∈ es →
    r'.user_id = uid ∧ r'.awaited = none ∧ ∃ token, ev.presents token ∧ verify token = some uid
  header : ∀ hdr, r'.awaited = some hdr →
    hdr.type = .CHAT ∧ ∃ allowed, ev = .tcp (.header hdr allowed)
  message : ∀ hdr payload, .route_message hdr payload ∈ es →
    payload.length = hdr.payload_len.toNat ∧
      (payload = [] ∧ hdr.type = .CHAT ∧ (∃ allowed, ev = .tcp (.header hdr allowed)) ∨
        r.awaited = some hdr ∧ ∃ allowed, ev = .tcp (.payload payload allowed))
  text : ∀ type j, .route_text type j ∈ es →
    ev = .ws (.text (some j)) ∧ j.value_string "type" = some type

section Asked

variable (as bs : List (Label ρ)) (s : ρ)

/-- A frame of the client brought the token. -/
def Presented (token : Bytes) : Prop := ∃ ev, .resume s ev ∈ as ∧ ev.presents token

def SentHeader (hdr : FrameHeader) : Prop :=
  ∃ allowed, .resume s (.tcp (.header hdr allowed)) ∈ as

def SentPayload (payload : Bytes) : Prop :=
  ∃ allowed, .resume s (.tcp (.payload payload allowed)) ∈ as

/-- The client asked for the routing: with a CHAT header and its payload, or with a text. -/
def Asked : Request → Prop
  | .tcp hdr payload => hdr.type = .CHAT ∧ payload.length = hdr.payload_len.toNat ∧
      SentHeader as s hdr ∧ (payload = [] ∨ SentPayload as s payload)
  | .ws type j => .resume s (.ws (.text (some j))) ∈ as ∧ j.value_string "type" = some type

variable {as bs s}

omit [DecidableEq ρ] in
theorem SentHeader.mono (hsub : as ⊆ bs) {hdr : FrameHeader} (h : SentHeader as s hdr) :
    SentHeader bs s hdr := by
  obtain ⟨allowed, hmem⟩ := h
  exact ⟨allowed, hsub hmem⟩

omit [DecidableEq ρ] in
theorem Asked.mono (hsub : as ⊆ bs) {request : Request} (h : Asked as s request) :
    Asked bs s request := by
  cases request with
  | tcp hdr payload =>
    obtain ⟨hchat, hlen, hheader, hpayload⟩ := h
    refine ⟨hchat, hlen, hheader.mono hsub, hpayload.imp_right fun hsent => ?_⟩
    obtain ⟨allowed, hmem⟩ := hsent
    exact ⟨allowed, hsub hmem⟩
  | ws type j => exact ⟨hsub h.1, h.2⟩

/-- The client of a session presented a token of the user in `bs`, and asked in `cs` for what is
to be routed. -/
structure SignedIn (verify : Bytes → Option UserId) (bs cs : List (Label ρ)) (s : ρ)
    (ss : ISession) : Prop where
  token : ∃ token, Presented bs s token ∧ verify token = some ss.run.user_id
  header : ∀ hdr, ss.run.awaited = some hdr → hdr.type = .CHAT ∧ SentHeader cs s hdr
  route : ∀ request, ss.route = some (.requested request) → Asked cs s request

omit [DecidableEq ρ] in
theorem SignedIn.mono {verify : Bytes → Option UserId} {cs ds : List (Label ρ)} {ss : ISession}
    (h : SignedIn verify bs cs s ss) (hsub : cs ⊆ ds) : SignedIn verify bs ds s ss where
  token := h.token
  header := fun hdr hr => ⟨(h.header hdr hr).1, (h.header hdr hr).2.mono hsub⟩
  route := fun request hr => (h.route request hr).mono hsub

/-- Whoever is in has signed in before he asked for anything. -/
def Traced (verify : Bytes → Option UserId) (as : List (Label ρ)) (w : Server ρ) : Prop :=
  ∀ s, (w.sessions s).stage ≠ .fresh →
    ∃ bs cs, as = bs ++ cs ∧ SignedIn verify bs cs s (w.sessions s)

end Asked

/-! ## Every step -/

/-- A change that lets nobody in, and that starts no routing. -/
structure ISession.Kept (ss ss' : ISession) : Prop where
  run : ss'.run = ss.run
  stage : ss'.stage = ss.stage
  route : ∀ request, ss'.route = some (.requested request) → ss.route = some (.requested request)

section Kept

variable {w w' w'' : Server ρ} {s : ρ} {verify : Bytes → Option UserId} {as : List (Label ρ)}

def Server.Kept (w w' : Server ρ) : Prop := ∀ t, (w.sessions t).Kept (w'.sessions t)

omit [DecidableEq ρ] in
theorem Server.Kept.trans (h : w.Kept w') (h' : w'.Kept w'') : w.Kept w'' := fun t =>
  ⟨(h' t).run.trans (h t).run, (h' t).stage.trans (h t).stage,
    fun request hr => (h t).route request ((h' t).route request hr)⟩

omit [DecidableEq ρ] in
theorem Server.Kept.refl : w.Kept w := fun _ => ⟨rfl, rfl, fun _ hr => hr⟩

omit [DecidableEq ρ] in
theorem Traced.kept (h : Traced verify as w) (hk : w.Kept w') : Traced verify as w' := by
  intro s hs
  rw [(hk s).stage] at hs
  obtain ⟨bs, cs, hsplit, htoken, hheader, hroute⟩ := h s hs
  refine ⟨bs, cs, hsplit, ?_, ?_, fun request hr => hroute request ((hk s).route request hr)⟩
  · rwa [(hk s).run]
  · rwa [(hk s).run]

omit [DecidableEq ρ] in
theorem Traced.later (h : Traced verify as w) (l : Label ρ) : Traced verify (as ++ [l]) w := by
  intro s hs
  obtain ⟨bs, cs, rfl, hin⟩ := h s hs
  exact ⟨bs, cs ++ [l], List.append_assoc bs cs [l],
    hin.mono (List.subset_append_left cs [l])⟩

/-- The routing that an effect starts. -/
def requested : Effect Stored → Option Request
  | .route_message hdr payload => some (.tcp hdr payload)
  | .route_text type j => some (.ws type j)
  | _ => none

end Kept

/-! ## The segments -/

section Segments

variable {w w' : Server ρ} {s : ρ} {verify : Bytes → Option UserId} {as : List (Label ρ)}
  {ev : AnyEvent}

end Segments

/-! ## Every run -/

section Runs

variable {w w' : Server ρ} {verify : Bytes → Option UserId} {transport : ρ → Transport}
  {as : List (Label ρ)}

/-- In every run each user has at most one copy of a message: in his offline queue, or posted,
queued, written or lost at one of his sessions. -/
theorem nobody_has_two_copies_of_a_message
    (hr : (chat_server verify transport).run as = some w) : Once w.holder w.copies := by
  have hmeets : (chat_server verify transport).Meets (fun _ _ => True) as :=
    Machine.meetsFrom_of_forall (fun _ _ _ => trivial) _
  have hmoves : ∀ u l u', Fit u → True → Server.step verify u l = some u' →
      (net : Machine (Net UserId ρ Item) _).MeetsFrom (fun _ _ => True) u.view
        (moves verify u l) :=
    fun _ _ _ _ _ _ => Machine.meetsFrom_of_forall (fun _ _ _ => trivial) _
  obtain ⟨ms, hms, _⟩ := server_refines_net hmoves hmeets hr
  rw [← content_view, ← place_user_view]
  exact nobody_has_two_copies hms

end Runs

/-- A message that was stored, flushed and written is at one place. -/
theorem a_written_message_is_nowhere_else : ∃ w, two_sessions.run kept_run = some w ∧
    w.copies (.written conn_7) = [sent 0 5 7] ∧ Once w.holder w.copies := by
  obtain ⟨w, hr, hwritten⟩ : ∃ w, two_sessions.run kept_run = some w ∧
      w.copies (.written conn_7) = [sent 0 5 7] := ⟨_, rfl, by decide⟩
  exact ⟨w, hr, hwritten, nobody_has_two_copies_of_a_message hr⟩

end loomic.server
