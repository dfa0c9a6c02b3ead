-- A stream that arrives in chunks. A splitter takes the next item off a buffer
-- once the buffer holds all of it. What it takes off does not depend on the
-- chunks, and the buffer keeps the rest.
import Mathlib.Data.List.Basic

namespace chunks

variable {β φ : Type*}

/-- What a longer buffer begins with is taken off in the same way. -/
structure Splitter (β φ : Type*) where
  next : List β → Option (φ × List β)
  shortens : ∀ {buffer item rest}, next buffer = some (item, rest) → rest.length < buffer.length
  stable : ∀ {buffer item rest} (more : List β), next buffer = some (item, rest) →
    next (buffer ++ more) = some (item, rest ++ more)

variable (S : Splitter β φ)

/-- All whole items, and what is left. -/
def Splitter.extract (buffer : List β) : List φ × List β :=
  match _h : S.next buffer with
  | none => ([], buffer)
  | some (item, rest) => (item :: (Splitter.extract rest).1, (Splitter.extract rest).2)
termination_by buffer.length
decreasing_by all_goals exact S.shortens (by assumption)

variable {S}

theorem extract_of_none {buffer : List β} (h : S.next buffer = none) :
    S.extract buffer = ([], buffer) := by
  rw [Splitter.extract]
  split
  · rfl
  · rename_i heq
    rw [h] at heq
    cases heq

theorem extract_of_some {buffer rest : List β} {item : φ} (h : S.next buffer = some (item, rest)) :
    S.extract buffer = (item :: (S.extract rest).1, (S.extract rest).2) := by
  rw [Splitter.extract]
  split
  · rename_i heq
    rw [h] at heq
    cases heq
  · rename_i heq
    rw [h] at heq
    obtain ⟨rfl, rfl⟩ := Prod.mk.inj (Option.some.inj heq)
    rfl

theorem next_nil : S.next [] = none := by
  cases h : S.next [] with
  | none => rfl
  | some p => exact absurd (S.shortens h) (Nat.not_lt_zero _)

/-- More bytes are extracted from what is left of the first ones. -/
theorem extract_append (buffer more : List β) :
    S.extract (buffer ++ more) =
      ((S.extract buffer).1 ++ (S.extract ((S.extract buffer).2 ++ more)).1,
        (S.extract ((S.extract buffer).2 ++ more)).2) := by
  induction h : buffer.length using Nat.strongRecOn generalizing buffer with
  | ind n ih =>
    cases hnext : S.next buffer with
    | none =>
      rw [extract_of_none hnext]
      rfl
    | some p =>
      have hlt := S.shortens hnext
      rw [extract_of_some (S.stable more hnext), extract_of_some hnext,
        ih p.2.length (h ▸ hlt) p.2 rfl]
      rfl

/-- A chunk arrives: the items so far, and the buffer. -/
def Splitter.feed (S : Splitter β φ) (state : List φ × List β) (chunk : List β) :
    List φ × List β :=
  (state.1 ++ (S.extract (state.2 ++ chunk)).1, (S.extract (state.2 ++ chunk)).2)

theorem feed_extract (received chunk : List β) :
    S.feed (S.extract received) chunk = S.extract (received ++ chunk) :=
  (extract_append received chunk).symm

theorem feed_after (received : List β) (chunks : List (List β)) :
    chunks.foldl S.feed (S.extract received) = S.extract (received ++ chunks.flatten) := by
  induction chunks generalizing received with
  | nil => simp
  | cons chunk chunks ih =>
    simp only [List.foldl_cons, List.flatten_cons]
    rw [feed_extract, ih (received ++ chunk), List.append_assoc]

/-- The chunks do not matter, only what they are together. -/
theorem feed_chunks (chunks : List (List β)) :
    chunks.foldl S.feed ([], []) = S.extract chunks.flatten := by
  have hstart : S.extract [] = ([], []) := extract_of_none next_nil
  rw [← hstart, feed_after]
  rfl

/-- Items one after the other are all extracted, when what follows them holds none. -/
theorem extract_flatMap {ι : Type*} {write : ι → List β} {read : ι → φ} {items : List ι}
    {rest : List β}
    (hwrite : ∀ item ∈ items, ∀ more, S.next (write item ++ more) = some (read item, more))
    (hrest : S.next rest = none) :
    S.extract (items.flatMap write ++ rest) = (items.map read, rest) := by
  induction items with
  | nil => exact extract_of_none hrest
  | cons item items ih =>
    rw [List.flatMap_cons, List.append_assoc, extract_of_some (hwrite item List.mem_cons_self _),
      ih fun other hother => hwrite other (List.mem_cons_of_mem _ hother)]
    rfl

end chunks
