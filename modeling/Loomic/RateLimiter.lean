-- The two token buckets of the server: `RateLimiter::allow`, with a bucket for each key
-- that the first request makes, and `TokenBucket::consume`, full when a session begins.
-- The doubles are exact rationals here. Each one is a bucket of the library, so the
-- bound of a window and the equality of the two are the library's laws.
import Loomic.Lib.TokenBuckets
import Mathlib.Algebra.Order.Field.Rat
import Mathlib.Logic.Function.Basic
import Mathlib.Tactic.NormNum

open token_buckets (Policy)

namespace loomic.rate_limiter

/-! ## The code -/

/-- `duration<double>` of a number of ticks. `steady_clock` ticks in nanoseconds. -/
def seconds (ticks : Int) : ℚ := ticks / 1000000000

/-- `RateLimiter::Bucket`. A `last_refill` of 0 marks a key with no request so far. -/
structure Bucket where
  tokens : ℚ := 0
  last_refill : Int := 0
deriving DecidableEq

/-- What `allow` does to the bucket of the key. -/
def Bucket.allow (max_tokens refill_rate : ℚ) (bucket : Bucket) (now : Int) : Bool × Bucket :=
  if bucket.last_refill = 0 then
    -- First request for this key: grant it and initialise the bucket.
    (true, { tokens := max_tokens - 1, last_refill := now })
  else
    let elapsed := seconds (now - bucket.last_refill)
    let tokens := min max_tokens (bucket.tokens + elapsed * refill_rate)
    if 1 ≤ tokens then
      (true, { tokens := tokens - 1, last_refill := now })
    else
      (false, { tokens, last_refill := now })

/-- The map of the buckets is total: `buckets_[key]` makes a default bucket. -/
structure RateLimiter where
  max_tokens_ : ℚ
  refill_rate_ : ℚ
  buckets_ : String → Bucket := fun _ => {}

/-- The constructor `RateLimiter::RateLimiter`. -/
def RateLimiter.new (max_tokens refill_rate : ℚ) : RateLimiter :=
  { max_tokens_ := max_tokens, refill_rate_ := refill_rate }

/-- `RateLimiter::allow`, at the clock reading `now`. -/
def RateLimiter.allow (rl : RateLimiter) (key : String) (now : Int) : Bool × RateLimiter :=
  let (ok, bucket) := (rl.buckets_ key).allow rl.max_tokens_ rl.refill_rate_ now
  (ok, { rl with buckets_ := Function.update rl.buckets_ key bucket })

/-- `TokenBucket` of a TCP session. -/
structure TokenBucket where
  tokens : ℚ := 20
  max_tokens : ℚ := 20
  refill_rate : ℚ := 5
  last_refill : Int

/-- `TokenBucket::consume`, at the clock reading `now`. -/
def TokenBucket.consume (b : TokenBucket) (now : Int) : Bool × TokenBucket :=
  let elapsed := seconds (now - b.last_refill)
  let tokens := min b.max_tokens (b.tokens + elapsed * b.refill_rate)
  if 1 ≤ tokens then
    (true, { b with last_refill := now, tokens := tokens - 1 })
  else
    (false, { b with last_refill := now, tokens := tokens })

/-! ## Sequences of calls -/

/-- A call of `allow`: its key and what the clock reads. -/
abbrev Call := String × Int

def RateLimiter.after : RateLimiter → List Call → RateLimiter
  | rl, [] => rl
  | rl, (key, now) :: calls => (rl.allow key now).2.after calls

/-- The calls with their answers. -/
def RateLimiter.log : RateLimiter → List Call → List (Call × Bool)
  | _, [] => []
  | rl, (key, now) :: calls => ((key, now), (rl.allow key now).1) :: (rl.allow key now).2.log calls

/-- When the calls for a key are made. -/
def times (calls : List Call) (key : String) : List Int :=
  calls.filterMap fun c => if c.1 = key then some c.2 else none

/-- The part of a log that is about a key: the times and the answers. -/
def log_of (log : List (Call × Bool)) (key : String) : List (Int × Bool) :=
  log.filterMap fun e => if e.1.1 = key then some (e.1.2, e.2) else none

/-- The answers to the calls for a key. -/
def RateLimiter.answers (rl : RateLimiter) (calls : List Call) (key : String) : List Bool :=
  (log_of (rl.log calls) key).map fun e => e.2

/-- How many calls for a key are accepted from `start` to `stop`, both in seconds. -/
def RateLimiter.accepted (rl : RateLimiter) (calls : List Call) (key : String)
    (start stop : ℚ) : Nat :=
  (log_of (rl.log calls) key).countP fun e =>
    e.2 && decide (start ≤ seconds e.1 ∧ seconds e.1 ≤ stop)

/-- The clock of the calls reads more than 0 and never runs back. -/
structure Clocked (ticks : List Int) : Prop where
  positive : ∀ now ∈ ticks, 0 < now
  nondecreasing : ticks.Pairwise (· ≤ ·)

def TokenBucket.answers : TokenBucket → List Int → List Bool
  | _, [] => []
  | b, now :: ticks => (b.consume now).1 :: (b.consume now).2.answers ticks

/-- A bucket that is full at the time of its construction. -/
def TokenBucket.full (max_tokens refill_rate : ℚ) (now : Int) : TokenBucket :=
  { tokens := max_tokens, max_tokens, refill_rate, last_refill := now }

/-! ## A key sees its own calls alone -/

def Bucket.after (max_tokens refill_rate : ℚ) : Bucket → List Int → Bucket
  | bucket, [] => bucket
  | bucket, now :: ticks =>
    (bucket.allow max_tokens refill_rate now).2.after max_tokens refill_rate ticks

def Bucket.log (max_tokens refill_rate : ℚ) : Bucket → List Int → List (Int × Bool)
  | _, [] => []
  | bucket, now :: ticks =>
    (now, (bucket.allow max_tokens refill_rate now).1) ::
      (bucket.allow max_tokens refill_rate now).2.log max_tokens refill_rate ticks

theorem allow_max (rl : RateLimiter) (key : String) (now : Int) :
    (rl.allow key now).2.max_tokens_ = rl.max_tokens_ := by
  simp [RateLimiter.allow]

theorem allow_rate (rl : RateLimiter) (key : String) (now : Int) :
    (rl.allow key now).2.refill_rate_ = rl.refill_rate_ := by
  simp [RateLimiter.allow]

theorem allow_answer (rl : RateLimiter) (key : String) (now : Int) :
    (rl.allow key now).1 = ((rl.buckets_ key).allow rl.max_tokens_ rl.refill_rate_ now).1 := by
  simp [RateLimiter.allow]

theorem allow_bucket_same (rl : RateLimiter) (key : String) (now : Int) :
    (rl.allow key now).2.buckets_ key =
      ((rl.buckets_ key).allow rl.max_tokens_ rl.refill_rate_ now).2 := by
  simp [RateLimiter.allow]

theorem allow_bucket_other (rl : RateLimiter) (key key' : String) (now : Int) (h : key ≠ key') :
    (rl.allow key now).2.buckets_ key' = rl.buckets_ key' := by
  simp [RateLimiter.allow, Function.update_of_ne h.symm]

@[simp] theorem times_cons_same (key : String) (now : Int) (calls : List Call) :
    times ((key, now) :: calls) key = now :: times calls key := by
  simp [times]

theorem times_cons_other (key key' : String) (now : Int) (calls : List Call) (h : key ≠ key') :
    times ((key, now) :: calls) key' = times calls key' := by
  simp [times, h]

/-- The bucket of a key after the calls is the one after the calls for the key. -/
theorem after_bucket (rl : RateLimiter) (calls : List Call) (key : String) :
    (rl.after calls).buckets_ key =
      (rl.buckets_ key).after rl.max_tokens_ rl.refill_rate_ (times calls key) := by
  induction calls generalizing rl with
  | nil => simp [RateLimiter.after, times, Bucket.after]
  | cons call calls ih =>
    obtain ⟨key', now⟩ := call
    rw [RateLimiter.after, ih, allow_max, allow_rate]
    by_cases h : key' = key
    · subst h
      rw [times_cons_same, allow_bucket_same, Bucket.after]
    · rw [times_cons_other _ _ _ _ h, allow_bucket_other _ _ _ _ h]

/-- And so is the log of the key. -/
theorem log_of_eq (rl : RateLimiter) (calls : List Call) (key : String) :
    log_of (rl.log calls) key =
      (rl.buckets_ key).log rl.max_tokens_ rl.refill_rate_ (times calls key) := by
  induction calls generalizing rl with
  | nil => simp [RateLimiter.log, log_of, times, Bucket.log]
  | cons call calls ih =>
    obtain ⟨key', now⟩ := call
    have hrest := ih (rl.allow key' now).2
    rw [allow_max, allow_rate] at hrest
    by_cases h : key' = key
    · subst h
      rw [times_cons_same, Bucket.log, ← allow_answer, ← allow_bucket_same, ← hrest]
      simp [RateLimiter.log, log_of]
    · rw [times_cons_other _ _ _ _ h, ← allow_bucket_other rl _ _ now h, ← hrest]
      simp [RateLimiter.log, log_of, h]

theorem new_bucket (max_tokens refill_rate : ℚ) (calls : List Call) (key : String) :
    ((RateLimiter.new max_tokens refill_rate).after calls).buckets_ key =
      ({} : Bucket).after max_tokens refill_rate (times calls key) := by
  simp [after_bucket, RateLimiter.new]

theorem new_log (max_tokens refill_rate : ℚ) (calls : List Call) (key : String) :
    log_of ((RateLimiter.new max_tokens refill_rate).log calls) key =
      ({} : Bucket).log max_tokens refill_rate (times calls key) := by
  simp [log_of_eq, RateLimiter.new]

/-! ## Each bucket is a bucket of the library -/

theorem seconds_sub (a b : Int) : seconds (a - b) = seconds a - seconds b := by
  simp only [seconds, Int.cast_sub]
  ring

theorem seconds_mono {a b : Int} (h : a ≤ b) : seconds a ≤ seconds b := by
  have hcast : (a : ℚ) ≤ b := Int.cast_le.2 h
  unfold seconds
  linarith

/-- A bucket of the code that has been used holds what a bucket of the library does. -/
structure Holds {P : Policy ℚ} (bucket : Bucket) (b : token_buckets.Bucket P) : Prop where
  tokens : bucket.tokens = b.level
  last : seconds bucket.last_refill = b.last
  used : 0 < bucket.last_refill

theorem allow_first (max_tokens refill_rate : ℚ) (now : Int) :
    ({} : Bucket).allow max_tokens refill_rate now =
      (true, { tokens := max_tokens - 1, last_refill := now }) := by
  simp [Bucket.allow]

theorem allow_used (max_tokens refill_rate : ℚ) (bucket : Bucket) (now : Int)
    (h : bucket.last_refill ≠ 0) (filled : ℚ)
    (hfilled : filled = min max_tokens
      (bucket.tokens + seconds (now - bucket.last_refill) * refill_rate)) :
    bucket.allow max_tokens refill_rate now =
      (decide (1 ≤ filled),
        { tokens := if 1 ≤ filled then filled - 1 else filled, last_refill := now }) := by
  subst hfilled
  by_cases hone : 1 ≤ min max_tokens
    (bucket.tokens + seconds (now - bucket.last_refill) * refill_rate)
  · simp only [Bucket.allow, if_neg h, hone, if_true, decide_true]
  · simp only [Bucket.allow, if_neg h, hone, if_false, decide_false]

/-- The first request of a key is a request to a full bucket. -/
theorem first_allow (P : Policy ℚ) (now : Int) (hnow : 0 < now) :
    (({} : Bucket).allow P.cap P.rate now).1 =
        ((token_buckets.Bucket.full P (seconds now)).request (seconds now)).1 ∧
      Holds (({} : Bucket).allow P.cap P.rate now).2
        ((token_buckets.Bucket.full P (seconds now)).request (seconds now)).2 := by
  have hone := P.one_le_cap
  rw [token_buckets.Bucket.full_request, allow_first]
  refine ⟨?_, ?_, ?_, hnow⟩
  · simp [token_buckets.Bucket.take_answer, hone]
  · simp [token_buckets.Bucket.take_level, hone]
  · simp

/-- What a bucket of the library is refilled to, in the words of the code. -/
theorem filled_eq {P : Policy ℚ} {b : token_buckets.Bucket P} (tokens : ℚ) (last now : Int)
    (htokens : tokens = b.level) (hlast : seconds last = b.last) (hnow : last ≤ now) :
    (b.refill (seconds now)).level = min P.cap (tokens + seconds (now - last) * P.rate) := by
  rw [b.refill_level _ (hlast ▸ seconds_mono hnow), seconds_sub, htokens, hlast]

/-- A later request does what the library's request does. -/
theorem next_allow {P : Policy ℚ} {bucket : Bucket} {b : token_buckets.Bucket P} (now : Int)
    (h : Holds bucket b) (hnow : bucket.last_refill ≤ now) :
    (bucket.allow P.cap P.rate now).1 = (b.request (seconds now)).1 ∧
      Holds (bucket.allow P.cap P.rate now).2 (b.request (seconds now)).2 := by
  have hfilled := filled_eq bucket.tokens bucket.last_refill now h.tokens h.last hnow
  rw [allow_used _ _ _ _ h.used.ne' _ hfilled, token_buckets.Bucket.request]
  refine ⟨?_, ?_, ?_, h.used.trans_le hnow⟩
  · simp [token_buckets.Bucket.take_answer]
  · simp [token_buckets.Bucket.take_level]
  · simp

theorem allow_last_refill (max_tokens refill_rate : ℚ) (bucket : Bucket) (now : Int) :
    (bucket.allow max_tokens refill_rate now).2.last_refill = now := by
  by_cases h : bucket.last_refill = 0
  · simp [Bucket.allow, h]
  · simp [allow_used _ _ _ _ h _ rfl]

/-- The buckets go on together over every sequence of requests. -/
theorem holds_log {P : Policy ℚ} {bucket : Bucket} {b : token_buckets.Bucket P} (ticks : List Int)
    (h : Holds bucket b) (hticks : (bucket.last_refill :: ticks).Pairwise (· ≤ ·)) :
    bucket.log P.cap P.rate ticks = ticks.zip (b.answers (ticks.map seconds)) ∧
      Holds (bucket.after P.cap P.rate ticks) (b.after (ticks.map seconds)) := by
  induction ticks generalizing bucket b with
  | nil => exact ⟨by simp [Bucket.log], h⟩
  | cons now ticks ih =>
    obtain ⟨hlast, hrest⟩ := List.pairwise_cons.1 hticks
    obtain ⟨hanswer, hnext⟩ := next_allow now h (hlast now List.mem_cons_self)
    obtain ⟨hlog, hafter⟩ := ih hnext ((allow_last_refill ..).symm ▸ hrest)
    refine ⟨?_, hafter⟩
    rw [Bucket.log, hlog, hanswer]
    simp

/-- The log of a key is that of a full bucket, whenever it was filled. -/
theorem fresh_log (P : Policy ℚ) (t₀ : ℚ) (ticks : List Int) (h : Clocked ticks) :
    ({} : Bucket).log P.cap P.rate ticks =
      ticks.zip ((token_buckets.Bucket.full P t₀).answers (ticks.map seconds)) := by
  cases ticks with
  | nil => simp [Bucket.log]
  | cons now ticks =>
    obtain ⟨hanswer, hnext⟩ := first_allow P now (h.positive now List.mem_cons_self)
    have hrest := (holds_log ticks hnext ((allow_last_refill ..).symm ▸ h.nondecreasing)).1
    rw [token_buckets.Bucket.full_answers t₀ (seconds now), Bucket.log, hrest, hanswer]
    simp

/-- The bucket of a key is unused, or it is a bucket of the library. -/
theorem fresh_after (P : Policy ℚ) (ticks : List Int) (h : Clocked ticks) :
    ({} : Bucket).after P.cap P.rate ticks = {} ∨
      ∃ b : token_buckets.Bucket P, Holds (({} : Bucket).after P.cap P.rate ticks) b := by
  cases ticks with
  | nil => exact .inl (by simp [Bucket.after])
  | cons now ticks =>
    obtain ⟨-, hnext⟩ := first_allow P now (h.positive now List.mem_cons_self)
    have hrest := (holds_log ticks hnext ((allow_last_refill ..).symm ▸ h.nondecreasing)).2
    exact .inr ⟨_, hrest⟩

theorem sorted_cons {ticks : List Int} (first : Int) (h : ticks.Pairwise (· ≤ ·))
    (hfirst : ∀ now ∈ ticks.head?, first ≤ now) : (first :: ticks).Pairwise (· ≤ ·) := by
  refine List.pairwise_cons.2 ⟨fun t ht => ?_, h⟩
  cases ticks with
  | nil => simp at ht
  | cons now ticks =>
    have hnow : first ≤ now := hfirst now (by simp)
    rcases List.mem_cons.1 ht with rfl | hmem
    · exact hnow
    · exact hnow.trans ((List.pairwise_cons.1 h).1 t hmem)

/-! ## The bound of a window -/

/-- The calls of a key are clocked where all the calls are. -/
theorem clocked_times {calls : List Call} (h : Clocked (calls.map fun c => c.2)) (key : String) :
    Clocked (times calls key) where
  positive now hnow := by
    obtain ⟨c, hc, heq⟩ := List.mem_filterMap.1 hnow
    have hpos := h.positive c.2 (List.mem_map_of_mem hc)
    split at heq <;> simp_all
  nondecreasing := by
    have hpairs := List.pairwise_map.1 h.nondecreasing
    refine hpairs.filterMap _ fun c c' hle now hnow now' hnow' => ?_
    split at hnow <;> split at hnow' <;> simp_all

/-- What is accepted for a key is what a full bucket grants. -/
theorem accepted_eq_granted (P : Policy ℚ) (calls : List Call) (key : String) (start stop t₀ : ℚ)
    (h : Clocked (times calls key)) :
    (RateLimiter.new P.cap P.rate).accepted calls key start stop =
      (token_buckets.Bucket.full P t₀).granted ((times calls key).map seconds) start stop := by
  unfold RateLimiter.accepted token_buckets.Bucket.granted
  rw [new_log, fresh_log P t₀ _ h, List.zip_map_left, List.countP_map]
  congr 1

theorem accepted_le (P : Policy ℚ) (calls : List Call) (key : String) (start stop : ℚ)
    (h : Clocked (times calls key)) (hle : start ≤ stop) :
    ((RateLimiter.new P.cap P.rate).accepted
        calls key start stop : ℚ) ≤ P.cap + P.rate * (stop - start) := by
  have hsorted :
      (((times calls key).headD 0 :: times calls key).map seconds).Pairwise (· ≤ ·) := by
    refine List.pairwise_map.2 (List.Pairwise.imp (fun hab => seconds_mono hab) ?_)
    refine sorted_cons _ h.nondecreasing fun now hnow => ?_
    simp [List.headD_eq_head?_getD, Option.mem_def.1 hnow]
  rw [accepted_eq_granted P calls key start stop (seconds ((times calls key).headD 0)) h]
  exact token_buckets.Bucket.granted_le_cap _ _ start stop (by simpa using hsorted) hle

/-- No bucket is ever below empty or above the burst capacity. -/
theorem tokens_in_range (P : Policy ℚ) (calls : List Call) (key : String)
    (h : Clocked (times calls key)) :
    0 ≤ (((RateLimiter.new P.cap P.rate).after
        calls).buckets_ key).tokens ∧
      (((RateLimiter.new P.cap P.rate).after
        calls).buckets_ key).tokens ≤ P.cap := by
  rw [new_bucket]
  rcases fresh_after P _ h with hunused | ⟨b, hb⟩
  · rw [hunused]
    exact ⟨le_refl _, zero_le_one.trans P.one_le_cap⟩
  · rw [hb.tokens]
    exact ⟨b.level_nonneg, b.level_le_cap⟩

/-- The answers for a key are a function of when its own calls are made. -/
theorem answers_eq (max_tokens refill_rate : ℚ) (calls : List Call) (key : String) :
    (RateLimiter.new max_tokens refill_rate).answers calls key =
      (({} : Bucket).log max_tokens refill_rate (times calls key)).map fun e => e.2 := by
  rw [RateLimiter.answers, new_log]

/-- Each window grants at most the burst and what is refilled within it, no bucket leaves
its range, and the keys are independent. -/
theorem every_window_is_bounded_and_keys_are_independent (max_tokens refill_rate : ℚ)
    (hmax : 1 ≤ max_tokens) (hrate : 0 ≤ refill_rate) :
    (∀ calls : List Call, Clocked (calls.map fun c => c.2) → ∀ (key : String) (start stop : ℚ),
      start ≤ stop →
        ((RateLimiter.new max_tokens refill_rate).accepted
          calls key start stop : ℚ) ≤ max_tokens + refill_rate * (stop - start)) ∧
    (∀ calls : List Call, Clocked (calls.map fun c => c.2) → ∀ key : String,
      0 ≤ (((RateLimiter.new max_tokens refill_rate).after
          calls).buckets_ key).tokens ∧
        (((RateLimiter.new max_tokens refill_rate).after
          calls).buckets_ key).tokens ≤ max_tokens) ∧
    (∃ answers_at : List Int → List Bool, ∀ (calls : List Call) (key : String),
      (RateLimiter.new max_tokens refill_rate).answers
        calls key = answers_at (times calls key)) := by
  let P : Policy ℚ := ⟨max_tokens, refill_rate, hmax, hrate⟩
  refine ⟨fun calls hcalls key start stop hle => ?_, fun calls hcalls key => ?_, ?_⟩
  · exact accepted_le P calls key start stop (clocked_times hcalls key) hle
  · exact tokens_in_range P calls key (clocked_times hcalls key)
  · exact ⟨fun ticks => (({} : Bucket).log max_tokens refill_rate ticks).map fun e => e.2,
      answers_eq max_tokens refill_rate⟩

/-- A burst of two at a slow refill, and a request for another key between. -/
theorem a_window_of_two_keys_is_bounded :
    ((RateLimiter.new 2 (1 / 2)).accepted
      [("10.0.0.1", 1), ("10.0.0.2", 1), ("10.0.0.1", 2), ("10.0.0.1", 3)] "10.0.0.1" 0 1 : ℚ) ≤
        2 + 1 / 2 * (1 - 0) :=
  (every_window_is_bounded_and_keys_are_independent 2 (1 / 2) (by norm_num) (by norm_num)).1 _
    ⟨by decide, by decide⟩ "10.0.0.1" 0 1 (by norm_num)

/-! ## The bucket of a session -/

/-- A bucket of a session holds what a bucket of the library does. -/
structure Keeps {P : Policy ℚ} (bucket : TokenBucket) (b : token_buckets.Bucket P) : Prop where
  max_tokens : bucket.max_tokens = P.cap
  refill_rate : bucket.refill_rate = P.rate
  tokens : bucket.tokens = b.level
  last : seconds bucket.last_refill = b.last

theorem full_keeps (P : Policy ℚ) (now : Int) :
    Keeps (TokenBucket.full P.cap P.rate now) (token_buckets.Bucket.full P (seconds now)) := by
  constructor <;> simp [TokenBucket.full]

theorem consume_eq (bucket : TokenBucket) (now : Int) (filled : ℚ)
    (hfilled : filled = min bucket.max_tokens
      (bucket.tokens + seconds (now - bucket.last_refill) * bucket.refill_rate)) :
    bucket.consume now =
      (decide (1 ≤ filled),
        { bucket with
          last_refill := now
          tokens := if 1 ≤ filled then filled - 1 else filled }) := by
  subst hfilled
  by_cases hone : 1 ≤ min bucket.max_tokens
    (bucket.tokens + seconds (now - bucket.last_refill) * bucket.refill_rate)
  · simp only [TokenBucket.consume, hone, if_true, decide_true]
  · simp only [TokenBucket.consume, hone, if_false, decide_false]

theorem next_consume {P : Policy ℚ} {bucket : TokenBucket} {b : token_buckets.Bucket P} (now : Int)
    (h : Keeps bucket b) (hnow : bucket.last_refill ≤ now) :
    (bucket.consume now).1 = (b.request (seconds now)).1 ∧
      Keeps (bucket.consume now).2 (b.request (seconds now)).2 := by
  have hfilled := filled_eq bucket.tokens bucket.last_refill now h.tokens h.last hnow
  rw [← h.max_tokens, ← h.refill_rate] at hfilled
  rw [consume_eq bucket now _ hfilled, token_buckets.Bucket.request]
  refine ⟨?_, h.max_tokens, h.refill_rate, ?_, ?_⟩
  · simp [token_buckets.Bucket.take_answer]
  · simp [token_buckets.Bucket.take_level]
  · simp

theorem consume_last_refill (bucket : TokenBucket) (now : Int) :
    (bucket.consume now).2.last_refill = now := by
  simp [consume_eq bucket now _ rfl]

theorem keeps_answers {P : Policy ℚ} {bucket : TokenBucket} {b : token_buckets.Bucket P}
    (ticks : List Int) (h : Keeps bucket b)
    (hticks : (bucket.last_refill :: ticks).Pairwise (· ≤ ·)) :
    bucket.answers ticks = b.answers (ticks.map seconds) := by
  induction ticks generalizing bucket b with
  | nil => simp [TokenBucket.answers]
  | cons now ticks ih =>
    obtain ⟨hlast, hrest⟩ := List.pairwise_cons.1 hticks
    obtain ⟨hanswer, hnext⟩ := next_consume now h (hlast now List.mem_cons_self)
    have htail := ih hnext ((consume_last_refill bucket now).symm ▸ hrest)
    rw [TokenBucket.answers, htail, hanswer]
    simp

/-- The two buckets give the same answers: the one that the first request makes, and the
one that was full at any time before it. -/
theorem allow_answers_as_consume (max_tokens refill_rate : ℚ) (hmax : 1 ≤ max_tokens)
    (hrate : 0 ≤ refill_rate) (calls : List Call) (key : String)
    (hcalls : Clocked (times calls key)) (built : Int)
    (hbuilt : ∀ now ∈ (times calls key).head?, built ≤ now) :
    (RateLimiter.new max_tokens refill_rate).answers calls key =
      (TokenBucket.full max_tokens refill_rate built).answers (times calls key) := by
  let P : Policy ℚ := ⟨max_tokens, refill_rate, hmax, hrate⟩
  have hsorted := sorted_cons built hcalls.nondecreasing hbuilt
  have hsession : (TokenBucket.full P.cap P.rate built).answers (times calls key) =
      (token_buckets.Bucket.full P (seconds built)).answers ((times calls key).map seconds) :=
    keeps_answers _ (full_keeps P built) hsorted
  have hlimiter : ({} : Bucket).log P.cap P.rate (times calls key) =
      (times calls key).zip
        ((token_buckets.Bucket.full P (seconds built)).answers ((times calls key).map seconds)) :=
    fresh_log P _ _ hcalls
  rw [answers_eq, hsession, hlimiter]
  exact List.map_snd_zip (by simp)

/-- Three requests of a key, with another key in between, and a session of the same age. -/
theorem three_requests_answer_as_a_session :
    (RateLimiter.new 2 5).answers
        [("10.0.0.1", 5), ("10.0.0.2", 5), ("10.0.0.1", 6), ("10.0.0.1", 7)] "10.0.0.1" =
      (TokenBucket.full 2 5 (-3)).answers [5, 6, 7] :=
  allow_answers_as_consume 2 5 (by norm_num) (by norm_num) _ _ ⟨by decide, by decide⟩ (-3)
    (by decide)

end loomic.rate_limiter
