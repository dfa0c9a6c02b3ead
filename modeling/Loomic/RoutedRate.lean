-- The chat frames of a TCP session (Session.cpp): `run()` routes one where its
-- `rate_limiter_` grants it, and the steady clock goes on between the segments. No
-- window has more than the burst and its refill, and that is all the limiter refuses.
import Loomic.Lib.Machine
import Loomic.RateLimiter
import Loomic.SessionRun

open loomic.frame loomic.rate_limiter loomic.session_run machines
open token_buckets (Policy)

namespace loomic.routed_rate

variable {α : Type}

/-! ## The session and its limiter -/

/-- The segment asks the limiter: it has the payload of a chat frame, or has none to read. -/
def asks (r : Run Session.Await) : Session.Event α → Bool
  | .header hdr _ => r.await = .header ∧ hdr.type = .CHAT ∧ hdr.payload_len = 0
  | .payload _ _ =>
    match r.await with
    | .chat_payload _ => true
    | _ => false
  | _ => false

/-- The event with the answer of the limiter. -/
def answered (allowed : Bool) : Session.Event α → Session.Event α
  | .header hdr _ => .header hdr allowed
  | .payload buf _ => .payload buf allowed
  | ev => ev

/-- The answer that an event carries. -/
def granted : Session.Event α → Bool
  | .header _ allowed => allowed
  | .payload _ allowed => allowed
  | _ => false

/-- The calls of `route_message`, each by what the clock reads. -/
def routings (now : Int) (effects : List (Effect α)) : List Int :=
  effects.filterMap fun
    | .route_message _ _ => some now
    | _ => none

/-- `routed` is not in the code: what the clock read at each call of `route_message`. -/
structure Limited where
  run : Run Session.Await
  rate_limiter_ : TokenBucket
  now : Int
  routed : List Int

inductive Label (α : Type)
  | tick (d : Nat)
  | resume (ev : Session.Event α)

def Limited.step (verify : Bytes → Option UserId) (s : Limited) : Label α → Option Limited
  | .tick d => some { s with now := s.now + d }
  | .resume ev =>
    let consumed := s.rate_limiter_.consume s.now
    (Session.resume s.run verify (answered consumed.1 ev)).map fun (run, effects) =>
      { s with
        run := run
        rate_limiter_ := if asks s.run ev then consumed.2 else s.rate_limiter_
        routed := s.routed ++ routings s.now effects }

/-- A session that is made when the clock reads `built`. -/
def session (α : Type) (verify : Bytes → Option UserId) (built : Int) :
    Machine Limited (Label α) where
  start :=
    { run := Session.start
      rate_limiter_ := { last_refill := built }
      now := built
      routed := [] }
  step := Limited.step verify

/-- How many frames are routed from `start` to `stop`, both in seconds. -/
def Limited.routed_in (s : Limited) (start stop : ℚ) : Nat :=
  s.routed.countP fun now => decide (start ≤ seconds now ∧ seconds now ≤ stop)

@[simp] theorem asks_answered (r : Run Session.Await) (allowed : Bool) (ev : Session.Event α) :
    asks r (answered allowed ev) = asks r ev := by
  cases ev <;> rfl

theorem granted_answered {r : Run Session.Await} {allowed : Bool} {ev : Session.Event α}
    (h : asks r ev = true) : granted (answered allowed ev) = allowed := by
  cases ev with
  | header hdr allowed₀ => rfl
  | payload buf allowed₀ => rfl
  | _ => cases h

/-! ## A segment routes what the limiter grants it -/

section Segments

variable {r : Run Session.Await} {now : Int}

@[simp] theorem routings_append (es es' : List (Effect α)) :
    routings now (es ++ es') = routings now es ++ routings now es' := List.filterMap_append

@[simp] theorem routings_enqueues (batch : List α) :
    routings now (batch.map Effect.enqueue) = [] := by
  simp [routings]

@[simp] theorem routings_read_header (es : List (Effect α)) :
    routings now (Session.read_header r es).2 = routings now es := by
  simp [Session.read_header, Run.to, routings]

@[simp] theorem routings_authenticate (verify : Bytes → Option UserId) (token : Bytes) :
    routings now (Session.authenticate (α := α) r verify token).2 = [] := by
  unfold Session.authenticate
  split <;> rfl

@[simp] theorem routings_raise : routings now (Session.raise (α := α) r).2 = [] := by
  unfold Session.raise Run.cleanup
  split <;> rfl

@[simp] theorem routings_typing_fan_out (hdr : FrameHeader) (ids : List UserId) :
    routings now (Session.typing_fan_out (α := α) r hdr ids).2 = [] := by
  rw [Session.typing_fan_out, routings_read_header]
  simp [routings]

@[simp] theorem routings_chat (hdr : FrameHeader) (payload : Bytes) (allowed : Bool) :
    routings now (Session.chat (α := α) r hdr payload allowed).2 =
      if allowed then [now] else [] := by
  cases allowed <;> rfl

theorem routings_dispatch (hdr : FrameHeader) (allowed : Bool) :
    routings now (Session.dispatch (α := α) r hdr allowed).2 =
      if (hdr.type = .CHAT ∧ hdr.payload_len = 0) ∧ allowed then [now] else [] := by
  unfold Session.dispatch
  by_cases hchat : hdr.type = .CHAT
  · have hping : hdr.type ≠ .PING := by
      rw [hchat]
      decide
    rw [if_neg hping, if_pos hchat]
    by_cases hempty : hdr.payload_len = 0
    · have hsmall : ¬ Session.kMaxPayload < hdr.payload_len := by
        rw [hempty]
        decide
      rw [if_neg hsmall, if_pos hempty, routings_chat]
      simp [hchat, hempty]
    · have hno : ¬ ((hdr.type = .CHAT ∧ hdr.payload_len = 0) ∧ allowed) := fun h => hempty h.1.2
      rw [if_neg hempty, if_neg hno]
      split <;> rfl
  · have hno : ¬ ((hdr.type = .CHAT ∧ hdr.payload_len = 0) ∧ allowed) := fun h => hchat h.1.1
    rw [if_neg hchat, if_neg hno]
    split_ifs <;> rfl

/-- A segment that asks and is granted routes one frame, and no other segment does. -/
theorem routings_resume (now : Int) {verify : Bytes → Option UserId} {ev : Session.Event α}
    {seg : Segment α Session.Await} (h : Session.resume r verify ev = some seg) :
    routings now seg.2 = if asks r ev ∧ granted ev then [now] else [] := by
  unfold Session.resume at h
  split at h <;> rename_i hawait
  -- the authentication
  · split_ifs at h <;> cases h
    · simp [asks, hawait, Session.co_return, Run.to, routings]
    · simp [asks, hawait]
    · simp [asks, hawait, Run.to, routings]
  · rw [asks, hawait]
    split_ifs at h
    cases h
    simp
  · cases h
    rfl
  -- the way to the loop
  · cases h
    rfl
  · cases h
    rfl
  · cases h
    simp [asks]
    rfl
  -- the loop
  · cases h
    rw [routings_dispatch]
    simp [asks, hawait, granted]
  · cases h
    rfl
  · cases h
    rfl
  · rw [asks, hawait]
    split_ifs at h
    cases h
    simp [granted]
  · cases h
    rfl
  · cases h
    rfl
  · split_ifs at h <;> cases h
    · rfl
    · simp [asks]
  · cases h
    simp [asks]
  · rw [asks, hawait]
    split_ifs at h
    cases h
    rfl
  -- the cleanup
  · cases h
    rfl
  · cases h
    rfl
  · split_ifs at h
    cases h
    simp [asks]
  · cases h

end Segments

/-! ## What the bucket has paid for -/

/-- The bucket of a session. -/
def policy : Policy ℚ where
  cap := 20
  rate := 5
  one_le_cap := by norm_num
  rate_nonneg := by norm_num

/-- The bucket that was full at the start, after requests at the times. -/
def bucket (built : Int) : token_buckets.Bucket policy := .full policy (seconds built)

/-- The limiter was asked at the times, and the frames it granted are those that are routed. -/
structure Paid (built : Int) (times : List ℚ) (s : Limited) : Prop where
  keeps : Keeps s.rate_limiter_ ((bucket built).after times)
  sorted : (seconds built :: times).Pairwise (· ≤ ·)
  past : ∀ t ∈ seconds built :: times, t ≤ seconds s.now
  last : s.rate_limiter_.last_refill ≤ s.now
  routed : ∀ start stop, s.routed_in start stop = (bucket built).granted times start stop

variable {built : Int} {times : List ℚ} {s s' : Limited}

theorem paid_start (verify : Bytes → Option UserId) :
    Paid built [] (session α verify built).start where
  keeps := full_keeps policy built
  sorted := by simp
  past := by simp [session]
  last := by simp [session]
  routed := by simp [session, Limited.routed_in, token_buckets.Bucket.granted]

theorem Paid.tick (h : Paid built times s) (d : Nat) :
    Paid built times { s with now := s.now + d } := by
  have hlater : s.now ≤ s.now + d := by omega
  exact { h with
    past := fun t ht => (h.past t ht).trans (seconds_mono hlater)
    last := h.last.trans hlater }

/-- The requests go on in order. -/
theorem Paid.sorted_now (h : Paid built times s) :
    (seconds built :: (times ++ [seconds s.now])).Pairwise (· ≤ ·) := by
  rw [← List.cons_append, List.pairwise_append]
  exact ⟨h.sorted, List.pairwise_singleton _ _, fun t ht u hu =>
    List.mem_singleton.mp hu ▸ h.past t ht⟩

/-- A segment that asks the limiter. -/
theorem Paid.ask (h : Paid built times s) (run : Run Session.Await) :
    Paid built (times ++ [seconds s.now])
      { s with
        run := run
        rate_limiter_ := (s.rate_limiter_.consume s.now).2
        routed := s.routed ++ if (s.rate_limiter_.consume s.now).1 then [s.now] else [] } := by
  obtain ⟨hanswer, hnext⟩ := next_consume s.now h.keeps h.last
  refine ⟨?_, h.sorted_now, ?_, ?_, fun start stop => ?_⟩
  · rwa [token_buckets.Bucket.after_snoc]
  · intro t ht
    rw [← List.cons_append, List.mem_append, List.mem_singleton] at ht
    rcases ht with ht | rfl
    · exact h.past t ht
    · exact le_refl _
  · exact (consume_last_refill _ _).le
  · have hrouted := h.routed start stop
    unfold Limited.routed_in at hrouted ⊢
    rw [token_buckets.Bucket.granted_snoc, ← hrouted, ← hanswer, List.countP_append]
    cases (s.rate_limiter_.consume s.now).1 <;> simp [List.countP_cons]

/-- What a segment that asks does: it spends a token for the frame that it routes. -/
theorem step_of_asks {verify : Bytes → Option UserId} {ev : Session.Event α}
    (hasks : asks s.run ev = true) (hs : s.step verify (.resume ev) = some s') :
    ∃ run, s' =
      { s with
        run := run
        rate_limiter_ := (s.rate_limiter_.consume s.now).2
        routed := s.routed ++ if (s.rate_limiter_.consume s.now).1 then [s.now] else [] } := by
  simp only [Limited.step, Option.map_eq_some_iff] at hs
  obtain ⟨⟨run, effects⟩, hresume, rfl⟩ := hs
  have hrouted := routings_resume s.now hresume
  rw [asks_answered, granted_answered hasks] at hrouted
  simp only [hasks, true_and] at hrouted
  exact ⟨run, by rw [if_pos hasks, hrouted]⟩

theorem step_of_not_asks {verify : Bytes → Option UserId} {ev : Session.Event α}
    (hasks : ¬ asks s.run ev = true) (hs : s.step verify (.resume ev) = some s') :
    ∃ run, s' = { s with run := run } := by
  simp only [Limited.step, Option.map_eq_some_iff] at hs
  obtain ⟨⟨run, effects⟩, hresume, rfl⟩ := hs
  have hrouted := routings_resume s.now hresume
  rw [asks_answered, if_neg fun h => hasks h.1] at hrouted
  exact ⟨run, by rw [if_neg hasks, hrouted, List.append_nil]⟩

theorem Paid.step {verify : Bytes → Option UserId} {l : Label α} (h : Paid built times s)
    (hs : s.step verify l = some s') : ∃ times', Paid built times' s' := by
  cases l with
  | tick d =>
    cases hs
    exact ⟨times, h.tick d⟩
  | resume ev =>
    by_cases hasks : asks s.run ev = true
    · obtain ⟨run, rfl⟩ := step_of_asks hasks hs
      exact ⟨_, h.ask run⟩
    · obtain ⟨run, rfl⟩ := step_of_not_asks hasks hs
      exact ⟨times, { h with }⟩

theorem paid_run {verify : Bytes → Option UserId} {ls : List (Label α)}
    (hr : (session α verify built).run ls = some s) : ∃ times, Paid built times s :=
  Machine.invariant (I := fun s => ∃ times, Paid built times s) ⟨[], paid_start verify⟩
    (fun _ _ _ ⟨_, h⟩ hs => h.step hs) hr

/-! ## The law of the limiter -/

theorem Paid.routed_in_le (h : Paid built times s) {start stop : ℚ} (hle : start ≤ stop) :
    (s.routed_in start stop : ℚ) ≤ 20 + 5 * (stop - start) := by
  rw [h.routed start stop]
  exact token_buckets.Bucket.granted_le_cap _ _ start stop (by simpa [bucket] using h.sorted) hle

theorem Paid.consume_iff (h : Paid built times s) :
    (s.rate_limiter_.consume s.now).1 = true ↔
      ∀ start ≤ seconds s.now,
        (s.routed_in start (seconds s.now) : ℚ) + 1 ≤ 20 + 5 * (seconds s.now - start) := by
  obtain ⟨hanswer, -⟩ := next_consume s.now h.keeps h.last
  rw [hanswer, bucket, token_buckets.Bucket.request_granted_iff _ _ _ h.sorted_now]
  simp only [h.routed]
  rfl

/-- In any window of time a session routes at most the twenty chat frames of the burst and five
for each second, and it refuses no frame but one with which a window would have more. -/
theorem a_frame_is_routed_iff_every_window_allows_it {verify : Bytes → Option UserId}
    {ls : List (Label α)} (hr : (session α verify built).run ls = some s) :
    (∀ start stop : ℚ, start ≤ stop → (s.routed_in start stop : ℚ) ≤ 20 + 5 * (stop - start)) ∧
      (∀ (ev : Session.Event α) s', asks s.run ev = true → s.step verify (.resume ev) = some s' →
        (s'.routed = s.routed ++ [s.now] ↔
          ∀ start ≤ seconds s.now,
            (s.routed_in start (seconds s.now) : ℚ) + 1 ≤ 20 + 5 * (seconds s.now - start))) := by
  obtain ⟨times, h⟩ := paid_run hr
  refine ⟨fun start stop hle => h.routed_in_le hle, fun ev s' hasks hs => ?_⟩
  obtain ⟨run, rfl⟩ := step_of_asks hasks hs
  rw [← h.consume_iff]
  cases (s.rate_limiter_.consume s.now).1 <;> simp

/-- A client logs in and sends twenty-one empty chat frames at once. -/
def burst : List (Label Bytes) :=
  let chat : Label Bytes := .resume (.header { msg_type := MsgType.CHAT.byte } true)
  [.header { payload_len := 1, msg_type := MsgType.AUTH.byte } true, .payload [7] true,
    .replied 0, .written, .frames []].map .resume ++
  (List.replicate 20 [chat, .resume .returned]).flatten ++ [chat]

theorem the_last_of_a_burst_is_refused :
    ∃ s, (session Bytes (fun _ => some 7) 0).run burst = some s ∧
      s.routed = List.replicate 20 0 ∧ s.run.await = .rate_error ∧
      (s.routed_in 0 0 : ℚ) ≤ 20 + 5 * (0 - 0) := by
  have hburst : ((session Bytes (fun _ => some 7) 0).run burst).map
      (fun s => (s.routed, s.run.await)) = some (List.replicate 20 0, .rate_error) := by
    decide +kernel
  obtain ⟨s, hr, hs⟩ := Option.map_eq_some_iff.mp hburst
  obtain ⟨hrouted, hawait⟩ := Prod.mk.inj hs
  exact ⟨s, hr, hrouted, hawait,
    (a_frame_is_routed_iff_every_window_allows_it hr).1 0 0 (le_refl _)⟩

end loomic.routed_rate
