-- The laws of the Snowflake ids. `next` hands out one id for each call; the
-- ids rise as long as no call reads again the millisecond that the spin loop
-- of the call before it ended on. The fields of an id never overlap, so two
-- machines share no id.
import Mathlib.Data.List.Chain
import Mathlib.Tactic.Ring

namespace loomic.snowflake

/-! ## The generator -/

-- What holds of all readings of a list is decided along the list, not for all 64-bit numbers.
instance decidable_readings (readings : List Int64) (p : Int64 → Prop) [DecidablePred p] :
    Decidable (∀ t ∈ readings, p t) :=
  List.decidableBAll p readings

/-- 2024-01-01T00:00:00Z in milliseconds since the Unix epoch. -/
def EPOCH_MS : Int64 := 1704067200000

structure SnowflakeGen where
  machine_id : UInt16
  last_ms : Int64
  sequence : Int64

/-- The constructor: the machine id is cut to ten bits. -/
def SnowflakeGen.new (machine_id : UInt16) : SnowflakeGen :=
  { machine_id := machine_id &&& 0x3FF, last_ms := 0, sequence := 0 }

/-- 41 bits of time, 10 bits of machine id, 12 bits of sequence. -/
def layout (now_ms : Int64) (machine_id : UInt16) (sequence : Int64) : Int64 :=
  now_ms <<< 22 ||| machine_id.toUInt64.toInt64 <<< 12 ||| sequence

/-- The spin loop: it reads the clock until the reading is no longer `last_ms`, and gives
that reading and the clock readings still to come. -/
def spin (last_ms : Int64) : List Int64 → Option (Int64 × List Int64)
  | [] => none
  | t :: clock =>
    if t - EPOCH_MS = last_ms then spin last_ms clock else some (t - EPOCH_MS, clock)

/-- One call, on the readings of the system clock to come. It gives the id, the generator
after it, and the readings that it left; `none` when the readings run out. -/
def SnowflakeGen.next (g : SnowflakeGen) :
    List Int64 → Option (Int64 × SnowflakeGen × List Int64)
  | [] => none
  | t :: clock =>
    let now_ms := t - EPOCH_MS
    if now_ms = g.last_ms then
      let sequence := g.sequence + 1
      if sequence > 0xFFF then
        -- the spin loop leaves `last_ms` as it was
        (spin g.last_ms clock).map fun (now_ms, clock) =>
          (layout now_ms g.machine_id 0, { g with sequence := 0 }, clock)
      else
        some (layout now_ms g.machine_id sequence, { g with sequence := sequence }, clock)
    else
      some (layout now_ms g.machine_id 0, { g with sequence := 0, last_ms := now_ms }, clock)

/-- A run of calls. Each call comes with the readings that it takes from the clock, and takes
all of them; the whole clock is their concatenation. -/
def SnowflakeGen.run : SnowflakeGen → List (List Int64) → Option (List Int64 × SnowflakeGen)
  | g, [] => some ([], g)
  | g, readings :: calls =>
    match g.next readings with
    | some (id, g', []) => (g'.run calls).map fun (ids, g'') => (id :: ids, g'')
    | _ => none

/-! ## The bits of an id -/

/-- The milliseconds of a reading as the id holds them: cut to 42 bits, and read as signed. -/
def stamp (now_ms : Int64) : Int := now_ms.toInt.bmod (2 ^ 42)

theorem toInt_eq_toNat_cond (x : Int64) : x.toInt =
    if 2 * x.toBitVec.toNat < 2 ^ 64 then (x.toBitVec.toNat : Int)
    else x.toBitVec.toNat - 2 ^ 64 := by
  have h := BitVec.toInt_eq_toNat_cond x.toBitVec
  exact_mod_cast h

theorem layout_toNat (ms s : Int64) (mid : UInt16) (hm : mid.toNat < 1024)
    (h0 : 0 ≤ s.toInt) (h1 : s.toInt < 4096) :
    (layout ms mid s).toBitVec.toNat =
      ms.toBitVec.toNat % 2 ^ 42 * 2 ^ 22 + (mid.toNat * 2 ^ 12 + s.toInt.toNat) := by
  have hs : s.toBitVec.toNat = s.toInt.toNat := by
    have h := toInt_eq_toNat_cond s
    have := s.toBitVec.isLt
    split at h <;> omega
  have hbits : (layout ms mid s).toBitVec =
      ms.toBitVec <<< 22 ||| (mid.toBitVec.setWidth 64) <<< 12 ||| s.toBitVec := by
    unfold layout
    simp only [Int64.toBitVec_or, Int64.toBitVec_shiftLeft]
    rfl
  have hshift : ms.toBitVec.toNat <<< 22 % 2 ^ 64 = (ms.toBitVec.toNat % 2 ^ 42) <<< 22 := by
    simp only [Nat.shiftLeft_eq]; omega
  have hmid : (mid.toBitVec.toNat % 2 ^ 64) <<< 12 % 2 ^ 64 = mid.toNat <<< 12 := by
    have : mid.toBitVec.toNat = mid.toNat := rfl
    simp only [Nat.shiftLeft_eq]; omega
  rw [hbits]
  simp only [BitVec.toNat_or, BitVec.toNat_shiftLeft, BitVec.toNat_setWidth, hs, hshift, hmid]
  rw [Nat.or_assoc, ← Nat.shiftLeft_add_eq_or_of_lt (by omega : s.toInt.toNat < 2 ^ 12)]
  rw [← Nat.shiftLeft_add_eq_or_of_lt (by simp only [Nat.shiftLeft_eq]; omega)]
  simp only [Nat.shiftLeft_eq]

theorem layout_toInt (ms s : Int64) (mid : UInt16) (hm : mid.toNat < 1024)
    (h0 : 0 ≤ s.toInt) (h1 : s.toInt < 4096) :
    (layout ms mid s).toInt = stamp ms * 2 ^ 22 + mid.toNat * 2 ^ 12 + s.toInt := by
  have hn := layout_toNat ms s mid hm h0 h1
  have hi := toInt_eq_toNat_cond (layout ms mid s)
  have hms := toInt_eq_toNat_cond ms
  have hlt := ms.toBitVec.isLt
  have hst : stamp ms = if ms.toBitVec.toNat % 2 ^ 42 < 2 ^ 41 then
      ((ms.toBitVec.toNat % 2 ^ 42 : Nat) : Int)
      else (ms.toBitVec.toNat % 2 ^ 42 : Nat) - 2 ^ 42 := by
    unfold stamp
    rw [Int.bmod_def]
    have hmod : ms.toInt % ((2 ^ 42 : Nat) : Int) = (ms.toBitVec.toNat % 2 ^ 42 : Nat) := by
      split at hms <;> omega
    rw [hmod]
    split <;> split <;> omega
  rw [hi, hn, hst]
  split <;> split <;> omega

/-! ## One call -/

/-- The machine id and the sequence fit the bits that the layout has for them. -/
structure Fits (g : SnowflakeGen) : Prop where
  machine : g.machine_id.toNat < 1024
  seq_nonneg : 0 ≤ g.sequence.toInt
  seq_lt : g.sequence.toInt < 4096

theorem fits_new (machine_id : UInt16) : Fits (SnowflakeGen.new machine_id) := by
  refine ⟨?_, Int.le_refl 0, by simp [SnowflakeGen.new]⟩
  have h : machine_id.toNat &&& 1023 ≤ 1023 := Nat.and_le_right
  simp only [SnowflakeGen.new, UInt16.toNat_and]
  exact Nat.lt_succ_of_le h

/-- The last clock reading that a call took. -/
def lastReading (readings : List Int64) : Int64 := readings.getLastD 0

@[simp] theorem lastReading_singleton (t : Int64) : lastReading [t] = t := rfl

@[simp] theorem lastReading_concat (readings : List Int64) (t : Int64) :
    lastReading (readings ++ [t]) = t := by
  simp [lastReading, List.getLastD_eq_getLast?]

theorem spin_cases {last_ms : Int64} {clock : List Int64} {now_ms : Int64}
    (h : spin last_ms clock = some (now_ms, [])) :
    ∃ pre t, clock = pre ++ [t] ∧ now_ms = t - EPOCH_MS ∧ now_ms ≠ last_ms := by
  induction clock with
  | nil => simp [spin] at h
  | cons t clock ih =>
    unfold spin at h
    split at h
    · obtain ⟨pre, u, rfl, hu⟩ := ih h
      exact ⟨t :: pre, u, rfl, hu⟩
    · simp only [Option.some.injEq, Prod.mk.injEq] at h
      obtain ⟨rfl, rfl⟩ := h
      exact ⟨[], t, rfl, rfl, ‹_›⟩

/-- What one call can do: count up in the millisecond of the call before, start a new
millisecond, or spin. -/
theorem next_cases {g g' : SnowflakeGen} {readings : List Int64} {id : Int64}
    (h : g.next readings = some (id, g', [])) :
    (∃ t, readings = [t] ∧ t - EPOCH_MS = g.last_ms ∧ g.sequence + 1 ≤ 0xFFF ∧
      g' = { g with sequence := g.sequence + 1 } ∧
      id = layout (t - EPOCH_MS) g.machine_id (g.sequence + 1)) ∨
    (∃ t, readings = [t] ∧ t - EPOCH_MS ≠ g.last_ms ∧
      g' = { g with sequence := 0, last_ms := t - EPOCH_MS } ∧
      id = layout (t - EPOCH_MS) g.machine_id 0) ∨
    (∃ t pre u, readings = (t :: pre) ++ [u] ∧ t - EPOCH_MS = g.last_ms ∧
      u - EPOCH_MS ≠ g.last_ms ∧ g' = { g with sequence := 0 } ∧
      id = layout (u - EPOCH_MS) g.machine_id 0) := by
  rcases readings with _ | ⟨t, clock⟩
  · simp [SnowflakeGen.next] at h
  unfold SnowflakeGen.next at h
  simp only at h
  split at h
  · split at h
    · simp only [Option.map_eq_some_iff, Prod.mk.injEq, Prod.exists] at h
      obtain ⟨now_ms, rest, hs, rfl, rfl, rfl⟩ := h
      obtain ⟨pre, u, rfl, rfl, hu⟩ := spin_cases hs
      exact .inr (.inr ⟨t, pre, u, rfl, ‹_›, hu, rfl, rfl⟩)
    · simp only [Option.some.injEq, Prod.mk.injEq] at h
      obtain ⟨rfl, rfl, rfl⟩ := h
      exact .inl ⟨t, rfl, ‹_›, Int64.not_lt.mp ‹_›, rfl, rfl⟩
  · simp only [Option.some.injEq, Prod.mk.injEq] at h
    obtain ⟨rfl, rfl, rfl⟩ := h
    exact .inr (.inl ⟨t, rfl, ‹_›, rfl, rfl⟩)

theorem toInt_sequence_succ {g : SnowflakeGen} (h : Fits g) :
    (g.sequence + 1).toInt = g.sequence.toInt + 1 := by
  have h0 := h.seq_nonneg
  have h1 := h.seq_lt
  rw [Int64.toInt_add, show (1 : Int64).toInt = 1 from rfl]
  exact Int.bmod_eq_of_le (by omega) (by omega)

theorem fits_next {g g' : SnowflakeGen} {readings : List Int64} {id : Int64} (hg : Fits g)
    (h : g.next readings = some (id, g', [])) : Fits g' := by
  have h0 := hg.seq_nonneg
  have hs := toInt_sequence_succ hg
  rcases next_cases h with ⟨t, _, _, hle, rfl, _⟩ | ⟨t, _, _, rfl, _⟩ | ⟨t, pre, u, _, _, _, rfl, _⟩
  · rw [Int64.le_iff_toInt_le, hs, show (0xFFF : Int64).toInt = 4095 from rfl] at hle
    exact ⟨hg.machine, by rw [hs]; omega, by rw [hs]; omega⟩
  · exact ⟨hg.machine, Int.le_refl 0, by simp⟩
  · exact ⟨hg.machine, Int.le_refl 0, by simp⟩

/-- What the generator still knows of the call before: after a call that took one reading,
`last_ms` is its millisecond; after a spin, `last_ms` lies behind it. -/
def Follows (g : SnowflakeGen) (readings : List Int64) : Prop :=
  if readings.length = 1 then g.last_ms = lastReading readings - EPOCH_MS
  else g.last_ms < lastReading readings - EPOCH_MS ∧ g.sequence = 0

/-- A call after `c` may end on a later millisecond, or on the last reading of `c` when `c`
did not spin. -/
def Rises (c c' : List Int64) : Prop :=
  stamp (lastReading c - EPOCH_MS) < stamp (lastReading c' - EPOCH_MS) ∨
    (lastReading c = lastReading c' ∧ c.length = 1)

theorem toInt_since {t : Int64} (h : EPOCH_MS ≤ t) :
    (t - EPOCH_MS).toInt = t.toInt - EPOCH_MS.toInt :=
  Int64.toInt_sub_of_le _ _ (by decide) h

/-- The readings of a clock that never runs back, from `EPOCH_MS` on. -/
def Clock (readings : List Int64) : Prop :=
  readings.Pairwise (· ≤ ·) ∧ ∀ t ∈ readings, EPOCH_MS ≤ t

theorem follows_next {g g' : SnowflakeGen} {readings : List Int64} {id : Int64}
    (hc : Clock readings) (h : g.next readings = some (id, g', [])) : Follows g' readings := by
  rcases next_cases h with ⟨t, rfl, ht, _, rfl, _⟩ | ⟨t, rfl, _, rfl, _⟩ |
    ⟨t, pre, u, rfl, ht, hu, rfl, _⟩
  · simp [Follows, ht]
  · simp [Follows]
  · have htu : t ≤ u := (List.pairwise_append.mp hc.1).2.2 t (by simp) u (by simp)
    have het := hc.2 t (by simp)
    have heu := hc.2 u (by simp)
    have hne : (t - EPOCH_MS).toInt ≠ (u - EPOCH_MS).toInt := by
      rw [ne_eq, Int64.toInt_inj, ht]
      exact fun he => hu he.symm
    simp only [Follows, List.cons_append, List.length_cons, List.length_append, List.length_nil,
      Nat.add_eq_right, Nat.add_eq_zero_iff, Nat.one_ne_zero, and_false, if_false]
    rw [← List.cons_append, lastReading_concat, ← ht, Int64.lt_iff_toInt_lt]
    rw [Int64.le_iff_toInt_le] at htu
    rw [toInt_since het, toInt_since heu] at hne ⊢
    exact ⟨by omega, trivial⟩

theorem next_id {g g' : SnowflakeGen} {readings : List Int64} {id : Int64}
    (h : g.next readings = some (id, g', [])) :
    id = layout (lastReading readings - EPOCH_MS) g'.machine_id g'.sequence := by
  rcases next_cases h with ⟨t, rfl, _, _, rfl, rfl⟩ | ⟨t, rfl, _, rfl, rfl⟩ |
    ⟨t, pre, u, rfl, _, _, rfl, rfl⟩
  · rfl
  · rfl
  · rw [lastReading_concat]

/-- An id that starts a sequence anew is above the id before it when its stamp is. -/
theorem layout_zero_lt_iff {g : SnowflakeGen} (hg : Fits g) (ms ms' : Int64) :
    layout ms g.machine_id g.sequence < layout ms' g.machine_id 0 ↔ stamp ms < stamp ms' := by
  have h0 := hg.seq_nonneg
  have h1 := hg.seq_lt
  rw [Int64.lt_iff_toInt_lt, layout_toInt _ _ _ hg.machine h0 h1,
    layout_toInt _ 0 _ hg.machine (Int.le_refl 0) (by simp), show (0 : Int64).toInt = 0 from rfl]
  omega

theorem id_lt_iff_rises {g g' : SnowflakeGen} {c c' : List Int64} {id' : Int64}
    (hg : Fits g) (hne : c ≠ []) (hc : Clock (c ++ c')) (hf : Follows g c)
    (h : g.next c' = some (id', g', [])) :
    layout (lastReading c - EPOCH_MS) g.machine_id g.sequence < id' ↔ Rises c c' := by
  have hanew : ∀ u, lastReading c' = u → u - EPOCH_MS ≠ g.last_ms →
      id' = layout (u - EPOCH_MS) g.machine_id 0 →
      (layout (lastReading c - EPOCH_MS) g.machine_id g.sequence < id' ↔ Rises c c') := by
    rintro u rfl hu rfl
    rw [layout_zero_lt_iff hg]
    unfold Rises
    refine ⟨.inl, fun hr => hr.resolve_right ?_⟩
    rintro ⟨hlast, hlen⟩
    rw [Follows, if_pos hlen, hlast] at hf
    exact hu hf.symm
  rcases next_cases h with ⟨t, rfl, ht, _, _, rfl⟩ | ⟨t, rfl, ht, _, hid⟩ |
    ⟨t, pre, u, rfl, _, hu, _, hid⟩
  · -- the call counts up, so the call before ended in this very millisecond
    have hmem : lastReading c ∈ c := by
      rw [lastReading, List.getLastD_eq_getLast?, List.getLast?_eq_some_getLast hne]
      exact List.getLast_mem hne
    have hle : lastReading c ≤ t := (List.pairwise_append.mp hc.1).2.2 _ hmem t (by simp)
    have hec := hc.2 _ (List.mem_append_left [t] hmem)
    have het := hc.2 t (by simp)
    by_cases hlen : c.length = 1
    · rw [Follows, if_pos hlen] at hf
      have heq : lastReading c = t := by
        rw [hf, ← Int64.toInt_inj, toInt_since hec, toInt_since het] at ht
        rw [← Int64.toInt_inj]
        omega
      refine ⟨fun _ => .inr ⟨heq, hlen⟩, fun _ => ?_⟩
      have hs := toInt_sequence_succ hg
      have h0 := hg.seq_nonneg
      have h1 := hg.seq_lt
      have hle' : (g.sequence + 1).toInt ≤ (0xFFF : Int64).toInt := Int64.le_iff_toInt_le.mp ‹_›
      rw [show (0xFFF : Int64).toInt = 4095 from rfl] at hle'
      rw [heq, Int64.lt_iff_toInt_lt, layout_toInt _ _ _ hg.machine h0 h1,
        layout_toInt _ _ _ hg.machine (by omega) (by omega)]
      omega
    · rw [Follows, if_neg hlen, ← ht, Int64.lt_iff_toInt_lt, toInt_since hec, toInt_since het] at hf
      rw [Int64.le_iff_toInt_le] at hle
      omega
  · exact hanew t rfl ht hid
  · exact hanew u (lastReading_concat _ _) hu hid

theorem run_cons {g g'' : SnowflakeGen} {c : List Int64} {calls : List (List Int64)}
    {ids : List Int64} (h : g.run (c :: calls) = some (ids, g'')) :
    ∃ id g' ids', g.next c = some (id, g', []) ∧ g'.run calls = some (ids', g'') ∧
      ids = id :: ids' := by
  unfold SnowflakeGen.run at h
  split at h
  · simp only [Option.map_eq_some_iff, Prod.mk.injEq, Prod.exists] at h
    obtain ⟨ids', _, hr, rfl, rfl⟩ := h
    exact ⟨_, _, ids', ‹_›, hr, rfl⟩
  · cases h

theorem isChain_ids_iff {g g' : SnowflakeGen} {c : List Int64} {calls : List (List Int64)}
    {ids : List Int64} (hg : Fits g) (hne : c ≠ []) (hf : Follows g c)
    (hc : Clock (c :: calls).flatten) (hr : g.run calls = some (ids, g')) :
    List.IsChain (· < ·) (layout (lastReading c - EPOCH_MS) g.machine_id g.sequence :: ids) ↔
      List.IsChain Rises (c :: calls) := by
  induction calls generalizing g c ids with
  | nil =>
    simp only [SnowflakeGen.run, Option.some.injEq, Prod.mk.injEq] at hr
    obtain ⟨rfl, _⟩ := hr
    simp
  | cons c' calls ih =>
    obtain ⟨id, g₁, ids', hn, hr', rfl⟩ := run_cons hr
    have hne' : c' ≠ [] := by rintro rfl; simp [SnowflakeGen.next] at hn
    rw [List.flatten_cons, List.flatten_cons, ← List.append_assoc] at hc
    have hpair : Clock (c ++ c') :=
      ⟨(List.pairwise_append.mp hc.1).1, fun t ht => hc.2 t (List.mem_append_left _ ht)⟩
    have hrest : Clock (c' :: calls).flatten := by
      rw [List.append_assoc] at hc
      exact ⟨(List.pairwise_append.mp hc.1).2.1, fun t ht => hc.2 t (List.mem_append_right _ ht)⟩
    have hc' : Clock c' :=
      ⟨(List.pairwise_append.mp hpair.1).2.1, fun t ht => hpair.2 t (List.mem_append_right _ ht)⟩
    rw [List.isChain_cons_cons, List.isChain_cons_cons, id_lt_iff_rises hg hne hpair hf hn,
      next_id hn, ih (fits_next hg hn) hne' (follows_next hc' hn) hrest hr']

/-! ## The law of the ids -/

/-- In the 41 bits that the layout has for the time, a stamp is the number of milliseconds. -/
theorem stamp_of_lt {ms : Int64} (h0 : 0 ≤ ms.toInt) (h1 : ms.toInt < 2 ^ 41) :
    stamp ms = ms.toInt :=
  Int.bmod_eq_of_le (by omega) (by omega)

/-- So before the year 2093, a call rises when it ends on a later reading, or on the same one
after a call that did not spin. -/
theorem rises_iff_of_lt {c c' : List Int64} (h : EPOCH_MS ≤ lastReading c)
    (h' : EPOCH_MS ≤ lastReading c') (hlt : (lastReading c - EPOCH_MS).toInt < 2 ^ 41)
    (hlt' : (lastReading c' - EPOCH_MS).toInt < 2 ^ 41) :
    Rises c c' ↔
      lastReading c < lastReading c' ∨ (lastReading c = lastReading c' ∧ c.length = 1) := by
  have h0 := Int64.le_iff_toInt_le.mp h
  have h0' := Int64.le_iff_toInt_le.mp h'
  rw [toInt_since h] at hlt
  rw [toInt_since h'] at hlt'
  rw [Rises, stamp_of_lt (by rw [toInt_since h]; omega) (by rw [toInt_since h]; omega),
    stamp_of_lt (by rw [toInt_since h']; omega) (by rw [toInt_since h']; omega),
    toInt_since h, toInt_since h', Int64.lt_iff_toInt_lt]
  constructor <;> rintro (hr | hr) <;> first | exact .inr hr | exact .inl (by omega)

/-- The ids of successive calls rise strictly if and only if each call rises over the call
before it. `next` promises the next unique id, but after the spin loop it forgets the
millisecond that it used. -/
theorem ids_rise_iff_calls_rise (machine_id : UInt16) (calls : List (List Int64))
    (ids : List Int64) (g : SnowflakeGen) (hc : Clock calls.flatten)
    (hr : (SnowflakeGen.new machine_id).run calls = some (ids, g)) :
    ids.Pairwise (· < ·) ↔ calls.IsChain Rises := by
  rw [← List.isChain_iff_pairwise]
  rcases calls with _ | ⟨c, calls⟩
  · simp only [SnowflakeGen.run, Option.some.injEq, Prod.mk.injEq] at hr
    obtain ⟨rfl, _⟩ := hr
    simp
  · obtain ⟨id, g₁, ids', hn, hr', rfl⟩ := run_cons hr
    have hne : c ≠ [] := by rintro rfl; simp [SnowflakeGen.next] at hn
    have hc' : Clock c :=
      ⟨(List.pairwise_append.mp hc.1).1, fun t ht => hc.2 t (List.mem_append_left _ ht)⟩
    rw [next_id hn]
    exact isChain_ids_iff (fits_next (fits_new machine_id) hn) hne (follows_next hc' hn) hc hr'

/-- Two calls in one millisecond, and one in the next. -/
theorem ids_rise_in_two_milliseconds :
    (([layout 1 1 0, layout 1 1 1, layout 2 1 0] : List Int64).Pairwise (· < ·) ↔
      [[EPOCH_MS + 1], [EPOCH_MS + 1], [EPOCH_MS + 2]].IsChain Rises) :=
  ids_rise_iff_calls_rise 1 [[EPOCH_MS + 1], [EPOCH_MS + 1], [EPOCH_MS + 2]] _
    ⟨1, 2, 0⟩ ⟨by decide, by decide⟩ rfl

/-! ## The id given twice -/

/-- `k` more calls in the millisecond of the call before count the sequence up by `k`. -/
theorem run_same_millisecond (t : Int64) (k : Nat) (g : SnowflakeGen) (hg : Fits g)
    (ht : t - EPOCH_MS = g.last_ms) (hk : g.sequence.toInt + k ≤ 4095) :
    ∃ (ids : List Int64) (s : Int64), s.toInt = g.sequence.toInt + k ∧ ∀ calls,
      g.run (List.replicate k [t] ++ calls) =
        (SnowflakeGen.run { g with sequence := s } calls).map fun r => (ids ++ r.1, r.2) := by
  induction k generalizing g with
  | zero => exact ⟨[], g.sequence, by simp, fun calls => by simp⟩
  | succ k ih =>
    have hs := toInt_sequence_succ hg
    have h0 := hg.seq_nonneg
    have hle : ¬ g.sequence + 1 > 0xFFF := by
      rw [gt_iff_lt, Int64.lt_iff_toInt_lt, hs, show (0xFFF : Int64).toInt = 4095 from rfl]
      omega
    have hn : g.next [t] = some (layout (t - EPOCH_MS) g.machine_id (g.sequence + 1),
        { g with sequence := g.sequence + 1 }, []) := by
      simp only [SnowflakeGen.next, ht, if_true, hle, if_false]
    obtain ⟨ids, s, hs', hr⟩ := ih _ (fits_next hg hn) ht (by simp only [hs]; omega)
    refine ⟨layout (t - EPOCH_MS) g.machine_id (g.sequence + 1) :: ids, s, ?_, fun calls => ?_⟩
    · simp only [hs', hs]; omega
    · simp only [List.replicate_succ, List.cons_append, SnowflakeGen.run, hn, hr, Option.map_map,
        Function.comp_def]

theorem clock_replicate (t : Int64) (k : Nat) (rest : List Int64) (ht : EPOCH_MS ≤ t)
    (hle : ∀ u ∈ rest, t ≤ u) (hc : Clock rest) : Clock (List.replicate k t ++ rest) := by
  refine ⟨List.pairwise_append.mpr ⟨?_, hc.1, ?_⟩, ?_⟩
  · exact List.pairwise_replicate.mpr (.inr (Int64.le_refl t))
  · intro u hu v hv
    rw [List.eq_of_mem_replicate hu]
    exact hle v hv
  · intro u hu
    rcases List.mem_append.mp hu with hu | hu
    · rw [List.eq_of_mem_replicate hu]; exact ht
    · exact hc.2 u hu

/-- 4096 calls in one millisecond, one more that spins to the next, and one in that
millisecond: the last two calls give the same id. -/
theorem next_gives_an_id_twice :
    ¬ ∀ (machine_id : UInt16) (calls : List (List Int64)) (ids : List Int64) (g : SnowflakeGen),
      Clock calls.flatten → (SnowflakeGen.new machine_id).run calls = some (ids, g) →
      ids.Pairwise (· < ·) := by
  intro hall
  have hg : Fits ⟨1, 1, 0⟩ := ⟨by decide, by decide, by decide⟩
  obtain ⟨ids, s, hs, hr⟩ := run_same_millisecond (EPOCH_MS + 1) 4095 ⟨1, 1, 0⟩ hg (by decide)
    (by decide)
  obtain rfl : s = 4095 := Int64.toInt_inj.mp (by rw [hs]; rfl)
  have hrun : (SnowflakeGen.new 1).run ([EPOCH_MS + 1] :: (List.replicate 4095 [EPOCH_MS + 1] ++
      [[EPOCH_MS + 1, EPOCH_MS + 2], [EPOCH_MS + 2]])) =
      some (layout 1 1 0 :: (ids ++ [layout 2 1 0, layout 2 1 0]), ⟨1, 2, 0⟩) := by
    have hn : (SnowflakeGen.new 1).next [EPOCH_MS + 1] = some (layout 1 1 0, ⟨1, 1, 0⟩, []) := rfl
    rw [SnowflakeGen.run, hn]
    simp only [hr]
    rfl
  have hclock := clock_replicate (EPOCH_MS + 1) 4096 [EPOCH_MS + 1, EPOCH_MS + 2, EPOCH_MS + 2]
    (by decide) (by decide) ⟨by decide, by decide⟩
  have hlt := hall _ _ _ _ (by
    simp only [List.flatten_cons, List.flatten_append, List.flatten_replicate_singleton,
      List.flatten_nil, List.append_nil]
    exact hclock) hrun
  rw [List.pairwise_cons, List.pairwise_append] at hlt
  exact absurd hlt.2.2.1 (by decide)

/-! ## The fields of an id -/

/-- The readings are of the 41 bits that the layout has for the time, in any order. -/
def InRange (readings : List Int64) : Prop :=
  ∀ t ∈ readings, 0 ≤ (t - EPOCH_MS).toInt ∧ (t - EPOCH_MS).toInt < 2 ^ 41

/-- An id is the sum of its three fields, and each can be read off it. -/
structure Decomposes (id : Int64) (ms : Int) (machine_id : UInt16) (sequence : Int64) : Prop where
  nonneg : 0 ≤ id.toInt
  sum : id.toInt = ms * 2 ^ 22 + (machine_id.toNat % 1024 : Nat) * 2 ^ 12 + sequence.toInt
  ms : id.toInt / 2 ^ 22 = ms
  machine : id.toInt / 2 ^ 12 % 2 ^ 10 = (machine_id.toNat % 1024 : Nat)
  sequence : id.toInt % 2 ^ 12 = sequence.toInt

theorem machine_id_new (machine_id : UInt16) :
    (SnowflakeGen.new machine_id).machine_id.toNat = machine_id.toNat % 1024 := by
  simp only [SnowflakeGen.new, UInt16.toNat_and]
  exact Nat.and_two_pow_sub_one_eq_mod machine_id.toNat 10

theorem machine_id_next {g g' : SnowflakeGen} {readings : List Int64} {id : Int64}
    (h : g.next readings = some (id, g', [])) : g'.machine_id = g.machine_id := by
  rcases next_cases h with ⟨t, _, _, _, rfl, _⟩ | ⟨t, _, _, rfl, _⟩ | ⟨t, pre, u, _, _, _, rfl, _⟩
  · rfl
  · rfl
  · rfl

/-- The reading that a call ends on is one of its readings. -/
theorem lastReading_mem {g g' : SnowflakeGen} {readings : List Int64} {id : Int64}
    (h : g.next readings = some (id, g', [])) : lastReading readings ∈ readings := by
  rcases next_cases h with ⟨t, rfl, _⟩ | ⟨t, rfl, _⟩ | ⟨t, pre, u, rfl, _⟩
  · exact List.mem_singleton.mpr rfl
  · exact List.mem_singleton.mpr rfl
  · rw [lastReading_concat]
    exact List.mem_append_right _ (List.mem_singleton.mpr rfl)

/-- A generator of the machine, between two calls. -/
structure Serves (machine_id : UInt16) (g : SnowflakeGen) : Prop where
  fits : Fits g
  machine : g.machine_id.toNat = machine_id.toNat % 1024

theorem serves_new (machine_id : UInt16) : Serves machine_id (.new machine_id) :=
  ⟨fits_new machine_id, machine_id_new machine_id⟩

theorem serves_next {machine_id : UInt16} {g g' : SnowflakeGen} {readings : List Int64}
    {id : Int64} (hg : Serves machine_id g) (h : g.next readings = some (id, g', [])) :
    Serves machine_id g' :=
  ⟨fits_next hg.fits h, (congrArg UInt16.toNat (machine_id_next h)).trans hg.machine⟩

theorem decomposes_next {machine_id : UInt16} {g g' : SnowflakeGen} {readings : List Int64}
    {id : Int64} (hg : Serves machine_id g) (hc : InRange readings)
    (h : g.next readings = some (id, g', [])) :
    Decomposes id (lastReading readings - EPOCH_MS).toInt machine_id g'.sequence := by
  obtain ⟨hms0, hms1⟩ := hc _ (lastReading_mem h)
  obtain ⟨⟨hm, h0, h1⟩, hmachine⟩ := serves_next hg h
  have hid := layout_toInt (lastReading readings - EPOCH_MS) g'.sequence g'.machine_id hm h0 h1
  rw [← next_id h, stamp_of_lt hms0 hms1] at hid
  constructor <;> omega

theorem serves_run {machine_id : UInt16} {g g' : SnowflakeGen} {calls : List (List Int64)}
    {ids : List Int64} (hg : Serves machine_id g) (hr : g.run calls = some (ids, g')) :
    Serves machine_id g' := by
  induction calls generalizing g ids with
  | nil =>
    obtain ⟨_, rfl⟩ := Prod.mk.inj (Option.some.inj hr)
    exact hg
  | cons c calls ih =>
    obtain ⟨id, g₁, ids', hn, hr', rfl⟩ := run_cons hr
    exact ih (serves_next hg hn) hr'

/-- Each id of a run has the field of its machine. -/
theorem machine_of_mem {machine_id : UInt16} {g g' : SnowflakeGen} {calls : List (List Int64)}
    {ids : List Int64} (hg : Serves machine_id g) (hc : InRange calls.flatten)
    (hr : g.run calls = some (ids, g')) :
    ∀ id ∈ ids, id.toInt / 2 ^ 12 % 2 ^ 10 = (machine_id.toNat % 1024 : Nat) := by
  induction calls generalizing g ids with
  | nil =>
    obtain ⟨rfl, _⟩ := Prod.mk.inj (Option.some.inj hr)
    simp
  | cons c calls ih =>
    obtain ⟨id, g₁, ids', hn, hr', rfl⟩ := run_cons hr
    rw [List.flatten_cons] at hc
    have hhead : InRange c := fun t ht => hc t (List.mem_append_left _ ht)
    have htail : InRange calls.flatten := fun t ht => hc t (List.mem_append_right _ ht)
    rw [List.forall_mem_cons]
    exact ⟨(decomposes_next hg hhead hn).machine, ih (serves_next hg hn) htail hr'⟩

/-- After any calls, the sequence has twelve bits, and the next id is made of the millisecond that
its call ends on, the machine id and the sequence, which are all read off it again. So the ids of
two machines differ. -/
theorem the_fields_of_an_id_are_apart :
    (∀ machine_id calls ids g, (SnowflakeGen.new machine_id).run calls = some (ids, g) →
      0 ≤ g.sequence.toInt ∧ g.sequence.toInt ≤ 4095 ∧
      ∀ readings id g', InRange readings → g.next readings = some (id, g', []) →
        Decomposes id (lastReading readings - EPOCH_MS).toInt machine_id g'.sequence) ∧
    ∀ (machine_id machine_id' : UInt16) calls calls' ids ids' g g',
      InRange calls.flatten → InRange calls'.flatten →
      (SnowflakeGen.new machine_id).run calls = some (ids, g) →
      (SnowflakeGen.new machine_id').run calls' = some (ids', g') →
      machine_id.toNat % 1024 ≠ machine_id'.toNat % 1024 → List.Disjoint ids ids' := by
  constructor
  · intro machine_id calls ids g hr
    have hg := serves_run (serves_new machine_id) hr
    refine ⟨hg.fits.seq_nonneg, Int.le_of_lt_add_one hg.fits.seq_lt, ?_⟩
    intro readings id g' hc hn
    exact decomposes_next hg hc hn
  · intro machine_id machine_id' calls calls' ids ids' g g' hc hc' hr hr' hne id hid hid'
    have hmachine := machine_of_mem (serves_new machine_id) hc hr id hid
    have hmachine' := machine_of_mem (serves_new machine_id') hc' hr' id hid'
    rw [hmachine] at hmachine'
    exact hne (by exact_mod_cast hmachine')

/-- A call of machine 1 that reads an earlier millisecond than the call before, and a call of
machine 2. -/
theorem the_ids_of_two_machines_differ :
    Decomposes (layout 1 1 0) 1 1 0 ∧ List.Disjoint [layout 2 1 0] [layout 2 2 0] :=
  ⟨(the_fields_of_an_id_are_apart.1 1 [[EPOCH_MS + 2]] [layout 2 1 0] ⟨1, 2, 0⟩ rfl).2.2
      [EPOCH_MS + 1] _ ⟨1, 1, 0⟩ (by unfold InRange; decide) rfl,
    the_fields_of_an_id_are_apart.2 1 2 [[EPOCH_MS + 2]] [[EPOCH_MS + 2]] _ _ ⟨1, 2, 0⟩ ⟨2, 2, 0⟩
      (by unfold InRange; decide) (by unfold InRange; decide) rfl rfl (by decide)⟩

end loomic.snowflake
