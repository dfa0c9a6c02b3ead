-- Token buckets over any ordered commutative ring of times and levels. A bucket
-- never holds less than nothing nor more than its cap. Its level is a potential:
-- what a run of requests takes is paid by the level it starts with and the refill
-- in between, so no window of length T grants more than cap + rate * T, and a request
-- is refused just when with it some window would.
import Mathlib.Algebra.Order.Ring.Defs
import Mathlib.Data.List.Basic
import Mathlib.Data.List.Induction
import Mathlib.Tactic.Linarith
import Mathlib.Tactic.Ring

namespace token_buckets

variable {K : Type*} [CommRing K] [LinearOrder K] [IsStrictOrderedRing K]

/-- How much a bucket holds and what it gains in a unit of time. -/
structure Policy (K : Type*) [CommRing K] [LinearOrder K] [IsStrictOrderedRing K] where
  cap : K
  rate : K
  one_le_cap : 1 ≤ cap
  rate_nonneg : 0 ≤ rate

/-- The level of a bucket at the time of its last refill. -/
structure Bucket (P : Policy K) where
  level : K
  last : K
  level_nonneg : 0 ≤ level
  level_le_cap : level ≤ P.cap

variable {P : Policy K}

/-- A bucket that is filled to its cap at time `t`. -/
def Bucket.full (P : Policy K) (t : K) : Bucket P where
  level := P.cap
  last := t
  level_nonneg := zero_le_one.trans P.one_le_cap
  level_le_cap := le_refl _

/-- The refill for the time since the last one. A clock that runs back adds nothing. -/
def Bucket.refill (b : Bucket P) (t : K) : Bucket P where
  level := min P.cap (b.level + max 0 (t - b.last) * P.rate)
  last := t
  level_nonneg := by
    have hgain : 0 ≤ max 0 (t - b.last) * P.rate := mul_nonneg (le_max_left _ _) P.rate_nonneg
    have hcap : 0 ≤ P.cap := zero_le_one.trans P.one_le_cap
    exact le_min hcap (add_nonneg b.level_nonneg hgain)
  level_le_cap := min_le_left _ _

/-- One token out of the bucket, if there is one. -/
def Bucket.take (b : Bucket P) : Bool × Bucket P :=
  if h : 1 ≤ b.level then
    (true, { b with
      level := b.level - 1
      level_nonneg := sub_nonneg.2 h
      level_le_cap := (sub_le_self _ zero_le_one).trans b.level_le_cap })
  else (false, b)

/-- A request at time `t`: the bucket is refilled first. -/
def Bucket.request (b : Bucket P) (t : K) : Bool × Bucket P := (b.refill t).take

/-- The bucket after requests at the times, one after the other. -/
def Bucket.after : Bucket P → List K → Bucket P
  | b, [] => b
  | b, t :: ts => (b.request t).2.after ts

/-- The answers to requests at the times, one after the other. -/
def Bucket.answers : Bucket P → List K → List Bool
  | _, [] => []
  | b, t :: ts => (b.request t).1 :: (b.request t).2.answers ts

/-- How many of the requests between `a` and `c` are granted. -/
def Bucket.granted (b : Bucket P) (ts : List K) (a c : K) : Nat :=
  (ts.zip (b.answers ts)).countP fun e => e.2 && decide (a ≤ e.1 ∧ e.1 ≤ c)

@[simp] theorem Bucket.answers_nil (b : Bucket P) : b.answers [] = [] := by
  simp [Bucket.answers]

@[simp] theorem Bucket.answers_cons (b : Bucket P) (t : K) (ts : List K) :
    b.answers (t :: ts) = (b.request t).1 :: (b.request t).2.answers ts := by
  simp [Bucket.answers]

@[simp] theorem Bucket.length_answers (b : Bucket P) (ts : List K) :
    (b.answers ts).length = ts.length := by
  induction ts generalizing b with
  | nil => simp
  | cons t ts ih => simp [ih]

@[simp] theorem Bucket.full_level (t : K) : (Bucket.full P t).level = P.cap := by
  simp [Bucket.full]

@[simp] theorem Bucket.full_last (t : K) : (Bucket.full P t).last = t := by
  simp [Bucket.full]

@[simp] theorem Bucket.refill_last (b : Bucket P) (t : K) : (b.refill t).last = t := by
  simp [Bucket.refill]

@[simp] theorem Bucket.take_last (b : Bucket P) : b.take.2.last = b.last := by
  unfold Bucket.take
  split <;> simp

@[simp] theorem Bucket.request_last (b : Bucket P) (t : K) : (b.request t).2.last = t := by
  simp [Bucket.request]

theorem Bucket.refill_level (b : Bucket P) (t : K) (h : b.last ≤ t) :
    (b.refill t).level = min P.cap (b.level + (t - b.last) * P.rate) := by
  simp [Bucket.refill, max_eq_right (sub_nonneg.2 h)]

theorem Bucket.take_answer (b : Bucket P) : b.take.1 = decide (1 ≤ b.level) := by
  unfold Bucket.take
  split <;> simp_all

theorem Bucket.take_level (b : Bucket P) :
    b.take.2.level = if 1 ≤ b.level then b.level - 1 else b.level := by
  unfold Bucket.take
  split <;> simp_all

/-! ## The level pays for what is granted -/

/-- A token that is granted is one that leaves the bucket. -/
theorem Bucket.take_pays (b : Bucket P) :
    ((if b.take.1 then 1 else 0 : Nat) : K) + b.take.2.level = b.level := by
  rw [b.take_answer, b.take_level]
  by_cases h : 1 ≤ b.level <;> simp [h]

theorem Bucket.request_pays (b : Bucket P) (t : K) (h : b.last ≤ t) :
    ((if (b.request t).1 then 1 else 0 : Nat) : K) + (b.request t).2.level ≤
      b.level + P.rate * (t - b.last) := by
  have hlevel := b.refill_level t h
  have hmin := min_le_right P.cap (b.level + (t - b.last) * P.rate)
  have hpays := (b.refill t).take_pays
  rw [Bucket.request, hpays, hlevel, mul_comm P.rate]
  exact hmin

theorem Bucket.granted_cons (b : Bucket P) (t : K) (ts : List K) (a c : K) :
    b.granted (t :: ts) a c =
      (b.request t).2.granted ts a c +
        if a ≤ t ∧ t ≤ c then (if (b.request t).1 then 1 else 0) else 0 := by
  unfold Bucket.granted
  by_cases h : a ≤ t ∧ t ≤ c <;> by_cases hb : (b.request t).1 <;>
    simp [h, hb]

/-- Requests that come after a window are none of its grants. -/
theorem Bucket.granted_late (b : Bucket P) (ts : List K) (a c : K) (h : ∀ t ∈ ts, c < t) :
    b.granted ts a c = 0 := by
  induction ts generalizing b with
  | nil => simp [Bucket.granted]
  | cons t ts ih =>
    have hts : ∀ t' ∈ ts, c < t' := fun t' ht' => h t' (List.mem_cons_of_mem _ ht')
    have ht : ¬ (a ≤ t ∧ t ≤ c) := fun hin => absurd hin.2 (not_le.2 (h t List.mem_cons_self))
    rw [b.granted_cons, ih _ hts, if_neg ht]

/-- Up to time `c` a bucket grants no more than its level and what it gains until then. -/
theorem Bucket.granted_le_level (b : Bucket P) (ts : List K) (a c : K)
    (hts : (b.last :: ts).Pairwise (· ≤ ·)) (hc : b.last ≤ c) :
    (b.granted ts a c : K) ≤ b.level + P.rate * (c - b.last) := by
  induction ts generalizing b with
  | nil =>
    have hgain := mul_nonneg P.rate_nonneg (sub_nonneg.2 hc)
    simpa [Bucket.granted] using add_nonneg b.level_nonneg hgain
  | cons t ts ih =>
    obtain ⟨hlast, hts⟩ := List.pairwise_cons.1 hts
    have ht : b.last ≤ t := hlast t List.mem_cons_self
    by_cases htc : t ≤ c
    · have hrest := ih (b.request t).2 (by simpa using hts) (by simpa using htc)
      have hstep := b.request_pays t ht
      have hsum : P.rate * (c - b.last) = P.rate * (t - b.last) + P.rate * (c - t) := by ring
      rw [Bucket.request_last] at hrest
      rw [b.granted_cons, Nat.cast_add]
      have hcount :
          ((if a ≤ t ∧ t ≤ c then (if (b.request t).1 then 1 else 0) else 0 : Nat) : K) ≤
            ((if (b.request t).1 then 1 else 0 : Nat) : K) := by
        by_cases hat : a ≤ t ∧ t ≤ c
        · rw [if_pos hat]
        · rw [if_neg hat]
          exact Nat.mono_cast (Nat.zero_le _)
      linarith
    · have hlate : ∀ t' ∈ t :: ts, c < t' := by
        intro t' ht'
        rcases List.mem_cons.1 ht' with rfl | hmem
        · exact not_le.1 htc
        · exact (not_le.1 htc).trans_le ((List.pairwise_cons.1 hts).1 t' hmem)
      have hgain := mul_nonneg P.rate_nonneg (sub_nonneg.2 hc)
      rw [b.granted_late _ a c hlate]
      simpa using add_nonneg b.level_nonneg hgain

/-- The window bound: whatever came before, a window from `a` to `c` grants no more than
a full bucket and what it gains within the window. -/
theorem Bucket.granted_le_cap (b : Bucket P) (ts : List K) (a c : K)
    (hts : (b.last :: ts).Pairwise (· ≤ ·)) (hac : a ≤ c) :
    (b.granted ts a c : K) ≤ P.cap + P.rate * (c - a) := by
  have hcap : 0 ≤ P.cap := zero_le_one.trans P.one_le_cap
  have hwindow : 0 ≤ P.rate * (c - a) := mul_nonneg P.rate_nonneg (sub_nonneg.2 hac)
  induction ts generalizing b with
  | nil => simpa [Bucket.granted] using add_nonneg hcap hwindow
  | cons t ts ih =>
    obtain ⟨hlast, hts⟩ := List.pairwise_cons.1 hts
    have hnext : ((b.request t).2.last :: ts).Pairwise (· ≤ ·) := by simpa using hts
    by_cases hin : a ≤ t ∧ t ≤ c
    · -- The first request of the window: from here on the level pays, and it is at most the cap.
      have hrest := (b.request t).2.granted_le_level ts a c hnext (by simpa using hin.2)
      have hpays : ((if (b.request t).1 then 1 else 0 : Nat) : K) + (b.request t).2.level =
          (b.refill t).level := (b.refill t).take_pays
      have hlevel := (b.refill t).level_le_cap
      have hlater : P.rate * (c - t) ≤ P.rate * (c - a) :=
        mul_le_mul_of_nonneg_left (sub_le_sub_left hin.1 c) P.rate_nonneg
      rw [Bucket.request_last] at hrest
      rw [b.granted_cons, if_pos hin, Nat.cast_add]
      linarith
    · have hrest := ih (b.request t).2 hnext
      rw [b.granted_cons, if_neg hin]
      simpa using hrest

/-! ## The last of the requests -/

theorem Bucket.after_snoc (b : Bucket P) (ts : List K) (t : K) :
    b.after (ts ++ [t]) = ((b.after ts).request t).2 := by
  induction ts generalizing b with
  | nil => simp [Bucket.after]
  | cons u ts ih => simp [Bucket.after, ih]

theorem Bucket.granted_snoc (b : Bucket P) (ts : List K) (t a c : K) :
    b.granted (ts ++ [t]) a c =
      b.granted ts a c +
        if a ≤ t ∧ t ≤ c then (if ((b.after ts).request t).1 then 1 else 0) else 0 := by
  induction ts generalizing b with
  | nil =>
    have h0 : ∀ b : Bucket P, b.granted [] a c = 0 := fun b => by simp [Bucket.granted]
    rw [List.nil_append, Bucket.granted_cons, h0, h0, Bucket.after]
  | cons u ts ih =>
    rw [List.cons_append, Bucket.granted_cons, ih, Bucket.granted_cons, Bucket.after]
    omega

theorem Bucket.granted_mono (b : Bucket P) (ts : List K) (a : K) {c c' : K} (h : c ≤ c') :
    b.granted ts a c ≤ b.granted ts a c' := by
  refine List.countP_mono_left fun e _ he => ?_
  rw [Bool.and_eq_true, decide_eq_true_iff] at he ⊢
  exact ⟨he.1, he.2.1, he.2.2.trans h⟩

theorem Bucket.after_last_le (b : Bucket P) (ts : List K) (t : K)
    (h : ∀ u ∈ b.last :: ts, u ≤ t) : (b.after ts).last ≤ t := by
  cases ts using List.reverseRecOn with
  | nil => exact h _ List.mem_cons_self
  | append_singleton ts u =>
    rw [Bucket.after_snoc, Bucket.request_last]
    exact h u (by simp)

theorem Bucket.take_grants_pay (b : Bucket P) (n : Nat) (x : K) (h : x ≤ b.level + n) :
    x ≤ b.take.2.level + ((n + if b.take.1 then 1 else 0 : Nat) : K) := by
  have hpays := b.take_pays
  rw [Nat.cast_add]
  linarith

/-- A bucket that began full has in some window up to now given out all that it has not got:
the window begins where the bucket was full the last time. -/
theorem Bucket.exists_spent (t₀ : K) (ts : List K) (hts : (t₀ :: ts).Pairwise (· ≤ ·)) :
    ∃ a ≤ ((Bucket.full P t₀).after ts).last,
      P.cap + P.rate * (((Bucket.full P t₀).after ts).last - a) ≤
        ((Bucket.full P t₀).after ts).level +
          (Bucket.full P t₀).granted ts a ((Bucket.full P t₀).after ts).last := by
  induction ts using List.reverseRecOn with
  | nil => exact ⟨t₀, by simp [Bucket.after], by simp [Bucket.after, Bucket.granted]⟩
  | append_singleton ts t ih =>
    rw [← List.cons_append, List.pairwise_append] at hts
    obtain ⟨hsorted, -, hlast⟩ := hts
    have ht : ((Bucket.full P t₀).after ts).last ≤ t :=
      Bucket.after_last_le _ ts t fun u hu => hlast u (by simpa using hu) t List.mem_cons_self
    obtain ⟨a, ha, hspent⟩ := ih hsorted
    have hrefill := ((Bucket.full P t₀).after ts).refill_level t ht
    rw [Bucket.after_snoc, Bucket.request_last]
    rcases le_total P.cap (((Bucket.full P t₀).after ts).level +
      (t - ((Bucket.full P t₀).after ts).last) * P.rate) with hcap | hcap
    · -- The refill fills the bucket: a new window begins.
      rw [min_eq_left hcap] at hrefill
      refine ⟨t, le_refl t, ?_⟩
      rw [Bucket.granted_snoc, if_pos ⟨le_refl t, le_refl t⟩]
      refine Bucket.take_grants_pay _ _ _ ?_
      rw [hrefill, sub_self, mul_zero, add_zero]
      exact le_add_of_nonneg_right (Nat.cast_nonneg _)
    · rw [min_eq_right hcap] at hrefill
      refine ⟨a, ha.trans ht, ?_⟩
      rw [Bucket.granted_snoc, if_pos ⟨ha.trans ht, le_refl t⟩]
      refine Bucket.take_grants_pay _ _ _ ?_
      have hmono : ((Bucket.full P t₀).granted ts a ((Bucket.full P t₀).after ts).last : K) ≤
          (Bucket.full P t₀).granted ts a t := Nat.mono_cast (Bucket.granted_mono _ ts a ht)
      rw [hrefill]
      linarith

/-- A request is granted just when with it no window up to now has more grants than a full
bucket and what it gains within the window. -/
theorem Bucket.request_granted_iff (t₀ : K) (ts : List K) (t : K)
    (hts : (t₀ :: (ts ++ [t])).Pairwise (· ≤ ·)) :
    (((Bucket.full P t₀).after ts).request t).1 = true ↔
      ∀ a ≤ t, ((Bucket.full P t₀).granted ts a t : K) + 1 ≤ P.cap + P.rate * (t - a) := by
  constructor
  · intro hgranted a ha
    have hle := (Bucket.full P t₀).granted_le_cap (ts ++ [t]) a t (by simpa using hts) ha
    rw [Bucket.granted_snoc, if_pos ⟨ha, le_refl t⟩, if_pos hgranted, Nat.cast_add] at hle
    simpa using hle
  · intro hall
    by_contra hrefused
    obtain ⟨a, ha, hspent⟩ := Bucket.exists_spent (P := P) t₀ (ts ++ [t]) hts
    rw [Bucket.after_snoc, Bucket.request_last] at ha hspent
    rw [Bucket.granted_snoc, if_pos ⟨ha, le_refl t⟩, if_neg hrefused, Nat.add_zero] at hspent
    have hempty : (((Bucket.full P t₀).after ts).request t).2.level < 1 := by
      rw [Bucket.request, Bucket.take_answer, decide_eq_true_iff] at hrefused
      rw [Bucket.request, Bucket.take_level, if_neg hrefused]
      exact not_le.1 hrefused
    have := hall a ha
    linarith

/-! ## Where a full bucket was filled -/

/-- A full bucket stays full until its first request, whenever it was filled. -/
theorem Bucket.full_refill (t₀ t : K) : (Bucket.full P t₀).refill t = Bucket.full P t := by
  have hgain : 0 ≤ max 0 (t - t₀) * P.rate := mul_nonneg (le_max_left _ _) P.rate_nonneg
  have hlevel : min P.cap (P.cap + max 0 (t - t₀) * P.rate) = P.cap :=
    min_eq_left (le_add_of_nonneg_right hgain)
  simp [Bucket.refill, Bucket.full, hlevel]

theorem Bucket.full_request (t₀ t : K) :
    (Bucket.full P t₀).request t = (Bucket.full P t).take := by
  simp [Bucket.request, Bucket.full_refill]

theorem Bucket.full_answers (t₀ t₁ : K) (ts : List K) :
    (Bucket.full P t₀).answers ts = (Bucket.full P t₁).answers ts := by
  cases ts with
  | nil => simp
  | cons t ts => simp [Bucket.full_request]

end token_buckets
