-- Texts whose pieces stand between separators, and the map that keeps the first
-- value of each key.
import Mathlib.Data.List.AList

namespace separators

/-! ## Pieces -/

section Pieces

variable {α : Type*} {sep : α}

variable (sep) in
/-- A text is a last piece, or a piece, a separator and the text behind it. -/
@[elab_as_elim]
theorem pieces_induction {motive : List α → Prop} (last : ∀ piece, sep ∉ piece → motive piece)
    (more : ∀ piece rest, sep ∉ piece → motive rest → motive (piece ++ sep :: rest))
    (s : List α) : motive s := by
  induction h : s.length using Nat.strongRecOn generalizing s with
  | ind n ih =>
    by_cases hsep : sep ∈ s
    · obtain ⟨piece, rest, rfl, hpiece⟩ := List.eq_append_cons_of_mem hsep
      have hlt : rest.length < n := by
        rw [← h, List.length_append, List.length_cons]
        omega
      exact more piece rest hpiece (ih rest.length hlt rest rfl)
    · exact last s hsep

variable [DecidableEq α]

/-- The first separator stands behind the first piece. -/
theorem idxOf_piece {piece : List α} (h : sep ∉ piece) (rest : List α) :
    (piece ++ sep :: rest).idxOf? sep = some piece.length := by
  induction piece with
  | nil => simp [List.idxOf?_cons]
  | cons a piece ih =>
    obtain ⟨hne, hpiece⟩ := not_or.1 (mt List.mem_cons.2 h)
    simp [List.idxOf?_cons, Ne.symm hne, ih hpiece]

/-- What stands in a piece stands in the text, and is no separator. -/
theorem mem_piece {s piece : List α} (h : piece ∈ s.splitOn sep) {a : α} (ha : a ∈ piece) :
    a ∈ s ∧ a ≠ sep := by
  induction s using pieces_induction sep with
  | last s hs =>
    rw [List.splitOn_eq_singleton hs, List.mem_singleton] at h
    subst h
    exact ⟨ha, fun heq => hs (heq ▸ ha)⟩
  | more first rest hfirst ih =>
    rw [List.splitOn_append_cons_self_of_not_mem hfirst] at h
    rcases List.mem_cons.1 h with rfl | hrest
    · exact ⟨List.mem_append_left _ ha, fun heq => hfirst (heq ▸ ha)⟩
    · obtain ⟨hmem, hne⟩ := ih hrest
      exact ⟨List.mem_append_right _ (List.mem_cons_of_mem _ hmem), hne⟩

/-- What the pieces are read to. Some of them are passed over. -/
def read_pieces {β : Type*} (sep : α) (read : List α → Option β) (s : List α) : List β :=
  (s.splitOn sep).filterMap read

theorem read_last {β : Type*} (read : List α → Option β) {piece : List α} (h : sep ∉ piece) :
    read_pieces sep read piece = (read piece).toList := by
  rw [read_pieces, List.splitOn_eq_singleton h]
  cases hread : read piece <;> simp [hread]

theorem read_more {β : Type*} (read : List α → Option β) {piece : List α} (h : sep ∉ piece)
    (rest : List α) :
    read_pieces sep read (piece ++ sep :: rest) =
      (read piece).toList ++ read_pieces sep read rest := by
  rw [read_pieces, List.splitOn_append_cons_self_of_not_mem h]
  cases hread : read piece <;> simp [hread, read_pieces]

end Pieces

/-! ## First values -/

section FirstValues

variable {κ ν : Type*} [DecidableEq κ]

/-- A key that is there keeps its value. -/
def emplace (m : AList fun _ : κ => ν) (k : κ) (v : ν) : AList fun _ : κ => ν :=
  if k ∈ m then m else m.insert k v

def emplace_all (m : AList fun _ : κ => ν) (pairs : List (κ × ν)) : AList fun _ : κ => ν :=
  pairs.foldl (fun m p => emplace m p.1 p.2) m

theorem lookup_emplace (m : AList fun _ : κ => ν) (k : κ) (v : ν) (key : κ) :
    (emplace m k v).lookup key = (m.lookup key).or (if key = k then some v else none) := by
  unfold emplace
  by_cases hk : k ∈ m
  · rw [if_pos hk]
    by_cases heq : key = k
    · subst heq
      obtain ⟨w, hw⟩ := Option.isSome_iff_exists.1 (AList.lookup_isSome.2 hk)
      rw [hw, Option.some_or]
    · rw [if_neg heq, Option.or_none]
  · rw [if_neg hk]
    by_cases heq : key = k
    · subst heq
      rw [AList.lookup_insert, AList.lookup_eq_none.2 hk, Option.none_or, if_pos rfl]
    · rw [AList.lookup_insert_ne heq, if_neg heq, Option.or_none]

theorem lookup_emplace_all (m : AList fun _ : κ => ν) (pairs : List (κ × ν)) (key : κ) :
    (emplace_all m pairs).lookup key = (m.lookup key).or (pairs.lookup key) := by
  induction pairs generalizing m with
  | nil => simp [emplace_all]
  | cons p pairs ih =>
    have hstep : emplace_all m (p :: pairs) = emplace_all (emplace m p.1 p.2) pairs := rfl
    rw [hstep, ih, lookup_emplace, Option.or_assoc, List.lookup_cons]
    by_cases heq : key = p.1
    · rw [if_pos heq, Option.some_or, beq_iff_eq.2 heq]
    · rw [if_neg heq, Option.none_or, beq_false_of_ne heq]

/-- The map of a list has the first value of each key. -/
theorem lookup_emplace_empty (pairs : List (κ × ν)) (key : κ) :
    (emplace_all ∅ pairs).lookup key = pairs.lookup key := by
  rw [lookup_emplace_all, AList.lookup_empty, Option.none_or]

theorem emplace_all_append (m : AList fun _ : κ => ν) (pairs pairs' : List (κ × ν)) :
    emplace_all m (pairs ++ pairs') = emplace_all (emplace_all m pairs) pairs' :=
  List.foldl_append

end FirstValues

end separators
