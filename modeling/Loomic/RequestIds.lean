-- The header X-Request-ID under interleaving: the id of a request lies in a
-- variable of the thread (g_request_ctx), which every connection writes when
-- it starts and clears when it ends, and reads when it sets the header.
import Loomic.HttpAnswers
import Loomic.Lib.Machine

open coroutines loomic.http_server loomic.uuid machines

namespace loomic.request_ids

/-! ## The connections of the thread -/

section Server

variable (Call : Type) (Answer : Call → Type)

/-- What a connection waits for. -/
inductive Phase
  | reading
  | upgraded
  | handling (rest : Coroutine Call Answer Response)
  | writing
  | closed

structure Connection where
  request_id : String
  phase : Phase Call Answer

inductive Event
  | started (i : Nat)
  | ended (i : Nat)
  deriving DecidableEq

/-- The variable of the thread, the connections in the order in which they were accepted, and
the responses that were handed to `async_write`. `history` is not in the code: the starts and
ends of connections, the newest first. -/
structure State where
  request_id : String
  conns : List (Connection Call Answer)
  sent : List (Nat × Response)
  history : List Event

/-- A connection is accepted, its request is read or the read fails, a call of its handler is
answered, its response is written, or its WebSocket session ends. -/
inductive Label
  | accept (hi lo : UInt64)
  | read (i : Nat) (req : Option Request)
  | answered (i : Nat) (answer : ∀ call, Answer call)
  | written (i : Nat)
  | left (i : Nat)

end Server

section Steps

variable {Call : Type} {Answer : Call → Type} {ε : Type}

def State.empty : State Call Answer :=
  { request_id := "", conns := [], sent := [], history := [] }

def State.ids (s : State Call Answer) : List String := s.conns.map (·.request_id)

def State.phase (s : State Call Answer) (i : Nat) : Option (Phase Call Answer) :=
  s.conns[i]?.map (·.phase)

def State.set_phase (s : State Call Answer) (i : Nat) (phase : Phase Call Answer) :
    State Call Answer :=
  { s with conns := s.conns.modify i ({ · with phase := phase }) }

/-- The coroutine ends, and clears the variable. -/
def State.finish (s : State Call Answer) (i : Nat) : State Call Answer :=
  { s.set_phase i .closed with request_id := "", history := .ended i :: s.history }

def State.send (s : State Call Answer) (i : Nat) (res : Response) : State Call Answer :=
  { s.set_phase i .writing with sent := s.sent ++ [(i, res)] }

/-- The handler goes on to its next call, or to its end: the headers are set, or the exception
is swallowed. -/
def State.advance (s : State Call Answer) (i : Nat) :
    Coroutine Call Answer Response → State Call Answer
  | .ret res => s.send i (inject s.request_id res)
  | .throw => s.finish i
  | .await call resume => s.set_phase i (.handling (.await call resume))

variable (routes : List (Route ε)) (serve : ε → Handler Call Answer)

/-- After `async_read`. -/
def State.read (s : State Call Answer) (i : Nat) : Option Request → State Call Answer
  | none => s.finish i
  | some req =>
    if req.upgrades then s.set_phase i .upgraded
    else if req.method = .options then s.send i (preflight s.request_id)
    else s.advance i (respond routes serve req)

/-- One resumption. No two ids that are generated are the same. -/
def State.step (s : State Call Answer) : Label Call Answer → Option (State Call Answer)
  | .accept hi lo =>
    if generate_uuid_v4 hi lo ∈ s.ids then none
    else some { s with
      request_id := generate_uuid_v4 hi lo
      conns := s.conns ++ [⟨generate_uuid_v4 hi lo, .reading⟩]
      history := .started s.conns.length :: s.history }
  | .read i req =>
    match s.phase i with
    | some .reading => some (s.read routes serve i req)
    | _ => none
  | .answered i answer =>
    match s.phase i with
    | some (.handling (.await call resume)) => some (s.advance i (resume (answer call)))
    | _ => none
  | .written i =>
    match s.phase i with
    | some .writing => some (s.finish i)
    | _ => none
  | .left i =>
    match s.phase i with
    | some .upgraded => some (s.finish i)
    | _ => none

def server : Machine (State Call Answer) (Label Call Answer) where
  start := .empty
  step := State.step routes serve

/-! ## The law -/

/-- Every response carries the id of its own connection, and no two connections the same. -/
structure Traced (s : State Call Answer) : Prop where
  own : ∀ p ∈ s.sent, p.2.header "X-Request-ID" = s.conns[p.1]?.map (·.request_id)
  apart : ∀ p ∈ s.sent, ∀ q ∈ s.sent, p.1 ≠ q.1 →
    p.2.header "X-Request-ID" ≠ q.2.header "X-Request-ID"

instance decidable_traced (s : State Call Answer) : Decidable (Traced s) :=
  decidable_of_iff (_ ∧ _) ⟨fun h => ⟨h.1, h.2⟩, fun h => ⟨h.own, h.apart⟩⟩

def replies : Coroutine Call Answer Response → Bool
  | .ret _ => true
  | .throw | .await _ _ => false

/-- The connection that sets the headers of its response in a step. -/
def State.sender (s : State Call Answer) : Label Call Answer → Option Nat
  | .read i (some req) =>
    if req.upgrades = false ∧ (req.method = .options ∨ replies (respond routes serve req)) then
      some i
    else none
  | .answered i answer =>
    match s.phase i with
    | some (.handling (.await call resume)) =>
      if replies (resume (answer call)) then some i else none
    | _ => none
  | .read _ none | .accept _ _ | .written _ | .left _ => none

/-- No connection has started or ended since the one that sets its headers started. -/
def Undisturbed (s : State Call Answer) (a : Label Call Answer) : Prop :=
  ∀ i ∈ s.sender routes serve a, s.history.head? = some (.started i)

end Steps

/-! ## What a resumption does -/

section Turns

variable {Call : Type} {Answer : Call → Type} {ε : Type} {routes : List (Route ε)}
  {serve : ε → Handler Call Answer} {s s' : State Call Answer} {i j : Nat}

/-- A resumption accepts a connection, sends a response with the id of the variable, moves a
connection on, or ends one. -/
inductive Turn (routes : List (Route ε)) (serve : ε → Handler Call Answer)
    (s : State Call Answer) (a : Label Call Answer) : State Call Answer → Prop
  | accept (id : String) (hid : id ≠ "") (hnew : id ∉ s.ids)
    (hsender : s.sender routes serve a = none) :
    Turn routes serve s a { s with
      request_id := id
      conns := s.conns ++ [⟨id, .reading⟩]
      history := .started s.conns.length :: s.history }
  | send (i : Nat) (hi : i < s.conns.length) (res : Response)
    (hres : res.header "X-Request-ID" = some s.request_id)
    (hsender : s.sender routes serve a = some i) : Turn routes serve s a (s.send i res)
  | move (i : Nat) (phase : Phase Call Answer) (hsender : s.sender routes serve a = none) :
    Turn routes serve s a (s.set_phase i phase)
  | finish (i : Nat) (hsender : s.sender routes serve a = none) :
    Turn routes serve s a (s.finish i)

theorem lt_of_phase {phase : Phase Call Answer} (h : s.phase i = some phase) :
    i < s.conns.length := by
  obtain ⟨conn, hconn, _⟩ := Option.map_eq_some_iff.mp h
  exact (List.getElem?_eq_some_iff.mp hconn).1

theorem turn_of_advance {a : Label Call Answer} {rest : Coroutine Call Answer Response}
    (hi : i < s.conns.length)
    (hsender : s.sender routes serve a = if replies rest then some i else none) :
    Turn routes serve s a (s.advance i rest) := by
  cases rest with
  | ret res => exact .send i hi _ (header_set _ _ _) hsender
  | throw => exact .finish i hsender
  | await call resume => exact .move i _ hsender

theorem turn_of_step {a : Label Call Answer} (h : s.step routes serve a = some s') :
    Turn routes serve s a s' := by
  cases a with
  | accept hi lo =>
    unfold State.step at h
    dsimp only at h
    split at h
    · cases h
    · rename_i hnew
      obtain rfl := Option.some.inj h
      exact .accept _ (generate_uuid_v4_ne hi lo) hnew rfl
  | read i req =>
    unfold State.step at h
    dsimp only at h
    split at h
    · rename_i hphase
      obtain rfl := Option.some.inj h
      have hi := lt_of_phase hphase
      cases req with
      | none => exact .finish i rfl
      | some req =>
        unfold State.read
        dsimp only
        split
        · rename_i hup
          exact .move i _ (by simp [State.sender, hup])
        · rename_i hup
          rw [Bool.not_eq_true] at hup
          split
          · rename_i hoptions
            exact .send i hi _ (header_set _ _ _) (by simp [State.sender, hup, hoptions])
          · rename_i hoptions
            exact turn_of_advance hi (by simp [State.sender, hup, hoptions])
    · cases h
  | answered i answer =>
    unfold State.step at h
    dsimp only at h
    split at h
    · rename_i call resume hphase
      obtain rfl := Option.some.inj h
      exact turn_of_advance (lt_of_phase hphase) (by simp [State.sender, hphase])
    · cases h
  | written i =>
    unfold State.step at h
    dsimp only at h
    split at h
    · obtain rfl := Option.some.inj h
      exact .finish i rfl
    · cases h
  | left i =>
    unfold State.step at h
    dsimp only at h
    split at h
    · obtain rfl := Option.some.inj h
      exact .finish i rfl
    · cases h

/-! ## The invariant -/

/-- The id of a connection. -/
def State.id (s : State Call Answer) (i : Nat) : Option String := s.conns[i]?.map (·.request_id)

/-- The id that the last start or end left in the variable. -/
def State.current (s : State Call Answer) : Option String :=
  match s.history.head? with
  | some (.started i) => s.id i
  | _ => some ""

structure Sound (s : State Call Answer) : Prop where
  current : some s.request_id = s.current
  started : ∀ i, s.history.head? = some (.started i) → i < s.conns.length
  distinct : s.ids.Nodup
  nonempty : "" ∉ s.ids
  sent : ∀ p ∈ s.sent, p.1 < s.conns.length
  own : ∀ p ∈ s.sent, p.2.header "X-Request-ID" = s.id p.1

@[simp] theorem conns_length_set_phase (s : State Call Answer) (i : Nat)
    (phase : Phase Call Answer) : (s.set_phase i phase).conns.length = s.conns.length := by
  simp [State.set_phase]

/-- The ids stay as they are when a connection moves on. -/
@[simp] theorem id_set_phase (s : State Call Answer) (i j : Nat) (phase : Phase Call Answer) :
    (s.set_phase i phase).id j = s.id j := by
  unfold State.id State.set_phase
  rw [List.getElem?_modify]
  cases s.conns[j]? with
  | none => rfl
  | some conn => by_cases hij : i = j <;> simp [hij]

@[simp] theorem ids_set_phase (s : State Call Answer) (i : Nat) (phase : Phase Call Answer) :
    (s.set_phase i phase).ids = s.ids := by
  apply List.ext_getElem?
  intro j
  unfold State.ids
  rw [List.getElem?_map, List.getElem?_map]
  exact id_set_phase s i j phase

theorem ids_getElem? (s : State Call Answer) (i : Nat) : s.ids[i]? = s.id i :=
  List.getElem?_map

/-- Two connections have two ids. -/
theorem Sound.id_inj {s : State Call Answer} (h : Sound s) {i j : Nat} (hi : i < s.conns.length)
    (heq : s.id i = s.id j) : i = j := by
  rw [← ids_getElem?, ← ids_getElem?] at heq
  have hlen : i < s.ids.length := by simpa [State.ids] using hi
  exact (List.getElem?_inj hlen h.distinct).mp heq

theorem sound_empty : Sound (State.empty : State Call Answer) where
  current := rfl
  started := by intro i h; cases h
  distinct := List.nodup_nil
  nonempty := List.not_mem_nil
  sent := by intro p hp; cases hp
  own := by intro p hp; cases hp

theorem Sound.set_phase (h : Sound s) (i : Nat) (phase : Phase Call Answer) :
    Sound (s.set_phase i phase) where
  current := by
    have hcurrent := h.current
    unfold State.current at hcurrent ⊢
    simp only [id_set_phase]
    exact hcurrent
  started := by
    intro j hj
    rw [conns_length_set_phase]
    exact h.started j hj
  distinct := by
    rw [ids_set_phase]
    exact h.distinct
  nonempty := by
    rw [ids_set_phase]
    exact h.nonempty
  sent := by
    intro p hp
    rw [conns_length_set_phase]
    exact h.sent p hp
  own := by
    intro p hp
    rw [id_set_phase]
    exact h.own p hp

/-- The end of a connection clears the variable. -/
theorem Sound.finish (h : Sound s) (i : Nat) : Sound (s.finish i) := by
  have hclosed := h.set_phase i .closed
  refine ⟨rfl, ?_, hclosed.distinct, hclosed.nonempty, hclosed.sent, hclosed.own⟩
  intro j hj
  cases hj

/-- The start of a connection sets the variable. -/
theorem Sound.accept (h : Sound s) {id : String} (hid : id ≠ "") (hnew : id ∉ s.ids) :
    Sound { s with
      request_id := id
      conns := s.conns ++ [⟨id, .reading⟩]
      history := .started s.conns.length :: s.history } where
  current := by simp [State.current, State.id]
  started := by
    intro i hi
    simp only [List.head?_cons, Option.some.injEq, Event.started.injEq] at hi
    simp [← hi]
  distinct := by
    unfold State.ids
    rw [List.map_append, List.nodup_append]
    refine ⟨h.distinct, List.pairwise_singleton _ id, ?_⟩
    intro old hold new hone
    obtain rfl := List.mem_singleton.mp hone
    intro heq
    exact hnew (heq ▸ hold)
  nonempty := by
    unfold State.ids
    rw [List.map_append, List.mem_append]
    rintro (hold | hone)
    · exact h.nonempty hold
    · exact hid (List.mem_singleton.mp hone).symm
  sent := by
    intro p hp
    have hlt := h.sent p hp
    simp only [List.length_append]
    omega
  own := by
    intro p hp
    rw [h.own p hp]
    unfold State.id
    dsimp only
    rw [List.getElem?_append_left (h.sent p hp)]

/-- A response is sent while the variable holds the id of its connection. -/
theorem Sound.send (h : Sound s) (hi : i < s.conns.length) {res : Response}
    (hres : res.header "X-Request-ID" = some s.request_id)
    (hlast : s.history.head? = some (.started i)) : Sound (s.send i res) := by
  have hwriting := h.set_phase i .writing
  refine ⟨hwriting.current, hwriting.started, hwriting.distinct, hwriting.nonempty, ?_, ?_⟩
  · intro p hp
    rcases List.mem_append.mp hp with hp | hp
    · exact hwriting.sent p hp
    · obtain rfl := List.mem_singleton.mp hp
      simpa [State.send] using hi
  · intro p hp
    rcases List.mem_append.mp hp with hp | hp
    · exact hwriting.own p hp
    · obtain rfl := List.mem_singleton.mp hp
      have hcurrent := h.current
      unfold State.current at hcurrent
      rw [hlast] at hcurrent
      rw [hres, hcurrent]
      exact (id_set_phase s i i .writing).symm

theorem Sound.traced (h : Sound s) : Traced s where
  own := h.own
  apart := by
    intro p hp q hq hne heq
    rw [h.own p hp, h.own q hq] at heq
    exact hne (h.id_inj (h.sent p hp) heq)

/-- A response that carries its own id was sent undisturbed. -/
theorem Sound.undisturbed (h : Sound s) {res : Response}
    (hres : res.header "X-Request-ID" = some s.request_id) (ht : Traced (s.send i res)) :
    s.history.head? = some (.started i) := by
  have hown : res.header "X-Request-ID" = s.id i := by
    rw [← id_set_phase s i i .writing]
    exact ht.own (i, res) (by simp [State.send])
  have hid : s.current = s.id i := by rw [← hown, hres, h.current]
  have hempty : s.id i ≠ some "" := by
    rw [← ids_getElem?]
    intro hnil
    exact h.nonempty (List.mem_of_getElem? hnil)
  unfold State.current at hid
  split at hid
  · rename_i j hlast
    rw [hlast, h.id_inj (h.started j hlast) hid]
  · exact absurd hid.symm hempty

/-! ## The law of runs -/

theorem sound_step {a : Label Call Answer} (h : Sound s) (hok : Undisturbed routes serve s a)
    (hstep : s.step routes serve a = some s') : Sound s' := by
  cases turn_of_step hstep with
  | accept id hid hnew hsender => exact h.accept hid hnew
  | send i hi res hres hsender => exact h.send hi hres (hok i hsender)
  | move i phase hsender => exact h.set_phase i phase
  | finish i hsender => exact h.finish i

theorem undisturbed_of_traced {a : Label Call Answer} (h : Sound s)
    (hstep : s.step routes serve a = some s') (ht : Traced s') :
    Undisturbed routes serve s a := by
  intro i hi
  cases turn_of_step hstep with
  | send j hj res hres hsender =>
    obtain rfl : j = i := Option.some.inj (hsender.symm.trans hi)
    exact h.undisturbed hres ht
  | accept id hid hnew hsender => cases hsender.symm.trans hi
  | move j phase hsender => cases hsender.symm.trans hi
  | finish j hsender => cases hsender.symm.trans hi

/-- Along a run every response carries the id that its own connection generated, and responses
to different requests different ids, exactly when no connection starts or ends between the start
of another one and the moment when its headers are set. -/
theorem responses_carry_their_ids_iff_requests_are_undisturbed (routes : List (Route ε))
    (serve : ε → Handler Call Answer) {as : List (Label Call Answer)} {s : State Call Answer}
    (hr : (server routes serve).run as = some s) :
    (∀ bs s', bs <+: as → (server routes serve).run bs = some s' → Traced s') ↔
      (server routes serve).Meets (Undisturbed routes serve) as :=
  Machine.always_iff_meets sound_empty (fun _ _ _ h hok hstep => sound_step h hok hstep)
    (fun _ h => h.traced) (fun _ _ _ h hstep ht => undisturbed_of_traced h hstep ht) hr

/-! ## One connection alone -/

theorem phase_set_phase (s : State Call Answer) (hi : i < s.conns.length)
    (phase : Phase Call Answer) : (s.set_phase i phase).phase i = some phase := by
  unfold State.phase State.set_phase
  rw [List.getElem?_modify, List.getElem?_eq_getElem hi]
  simp

/-- The calls of a handler are answered one after the other, and its response is sent. -/
theorem a_handler_runs_to_its_end (x : Coroutine Call Answer Response)
    (answers : Answers Call Answer) (s : State Call Answer) (hi : i < s.conns.length) :
    ∃ as s', (server routes serve).runFrom (s.advance i x) as = some s' ∧
      some (s'.sent.map (·.2)) = (((x.bind fun res => .ret [inject s.request_id res]).catch
        (.ret [])).run answers).map (s.sent.map (·.2) ++ ·) := by
  induction x generalizing answers s with
  | ret res =>
    refine ⟨[], _, rfl, ?_⟩
    simp [State.advance, State.send, Coroutine.bind, Coroutine.catch]
  | throw =>
    refine ⟨[], _, rfl, ?_⟩
    simp [State.advance, State.finish, State.set_phase, Coroutine.bind, Coroutine.catch]
  | await call resume ih =>
    have hlen : i < (s.set_phase i (.handling (.await call resume))).conns.length := by
      rw [conns_length_set_phase]
      exact hi
    obtain ⟨as, s', hrun, hsent⟩ := ih (answers 0 call) answers.tail _ hlen
    refine ⟨.answered i (answers 0) :: as, s', ?_, hsent⟩
    have hphase := phase_set_phase s hi (.handling (.await call resume))
    have hstep : (server routes serve).step (s.advance i (.await call resume))
        (.answered i (answers 0)) =
        some ((s.set_phase i (.handling (.await call resume))).advance i
          (resume (answers 0 call))) := by
      change (s.set_phase i (.handling (.await call resume))).step routes serve
        (.answered i (answers 0)) = _
      unfold State.step
      dsimp only
      rw [hphase]
    rw [Machine.runFrom, hstep]
    exact hrun

/-- One connection, whose request has not been read. -/
def accepted (id : String) : State Call Answer :=
  { request_id := id, conns := [⟨id, .reading⟩], sent := [], history := [.started 0] }

theorem step_accept (hi lo : UInt64) :
    State.step routes serve .empty (.accept hi lo) =
      some (accepted (generate_uuid_v4 hi lo)) := by
  unfold State.step
  dsimp only
  rw [if_neg (by simp [State.ids, State.empty])]
  rfl

theorem step_read (id : String) (req : Request) :
    State.step routes serve (accepted id) (.read 0 (some req)) =
      some ((accepted id).read routes serve 0 (some req)) := by
  unfold State.step
  rfl

theorem run_accept_read (hi lo : UInt64) (req : Request) (as : List (Label Call Answer)) :
    (server routes serve).run (.accept hi lo :: .read 0 (some req) :: as) =
      (server routes serve).runFrom
        ((accepted (generate_uuid_v4 hi lo)).read routes serve 0 (some req)) as := by
  unfold Machine.run server
  rw [Machine.runFrom]
  dsimp only
  rw [step_accept, Option.bind_some, Machine.runFrom]
  dsimp only
  rw [step_read, Option.bind_some]

/-- A connection that is alone sends what `handle_connection` writes with its id. -/
theorem a_lone_connection_is_handled (routes : List (Route ε)) (serve : ε → Handler Call Answer)
    (hi lo : UInt64) (req : Request) (answers : Answers Call Answer) :
    ∃ as s, (server routes serve).run (.accept hi lo :: .read 0 (some req) :: as) = some s ∧
      some (s.sent.map (·.2)) =
        (handle_connection routes serve (generate_uuid_v4 hi lo) req).run answers := by
  simp only [run_accept_read]
  generalize generate_uuid_v4 hi lo = id
  unfold handle_connection
  by_cases hup : req.upgrades
  · refine ⟨[], _, rfl, ?_⟩
    simp [State.read, hup, State.set_phase, accepted]
  by_cases hoptions : req.method = .options
  · refine ⟨[], _, rfl, ?_⟩
    simp [State.read, hup, hoptions, State.send, State.set_phase, accepted]
  · have hread : (accepted id).read routes serve 0 (some req) =
        (accepted id).advance 0 (respond routes serve req) := by
      simp [State.read, hup, hoptions]
    obtain ⟨as, s, hrun, hsent⟩ := a_handler_runs_to_its_end (respond routes serve req) answers
      (accepted id) Nat.one_pos
    refine ⟨as, s, ?_, ?_⟩
    · rw [hread]
      exact hrun
    · rw [hsent, if_neg hup, if_neg hoptions]
      simp [accepted]

end Turns

/-! ## Two connections -/

section Examples

open loomic.http_answers loomic.http_handlers

instance decidable_undisturbed {Call : Type} {Answer : Call → Type} {ε : Type}
    (routes : List (Route ε)) (serve : ε → Handler Call Answer) (s : State Call Answer)
    (a : Label Call Answer) : Decidable (Undisturbed routes serve s a) :=
  inferInstanceAs (Decidable (∀ i ∈ s.sender routes serve a, _))

def health_request : Request := { method := .get, target := "/health" }

def small_server : Machine (State Call Call.Answer) (Label Call Call.Answer) :=
  server routes (serve small_setup {})

/-- One request after the other. -/
def in_turn : List (Label Call Call.Answer) :=
  [.accept 0 0, .read 0 (some health_request), .written 0, .accept 0 1,
    .read 1 (some health_request), .written 1]

/-- The second connection is accepted before the request of the first one is read. -/
def overlapping : List (Label Call Call.Answer) :=
  [.accept 0 0, .accept 0 1, .read 0 (some health_request)]

theorem requests_in_turn_carry_their_ids :
    ∃ s, small_server.run in_turn = some s ∧ Traced s :=
  ⟨_, rfl, (responses_carry_their_ids_iff_requests_are_undisturbed routes (serve small_setup {})
    rfl).mpr (by decide)
    in_turn _ (List.prefix_refl _) rfl⟩

theorem an_overlapping_request_carries_another_id :
    ∃ s, small_server.run overlapping = some s ∧ ¬ Traced s :=
  ⟨_, rfl, by decide⟩

end Examples

end loomic.request_ids
