-- A buffer of bounded size: an item takes the place of an older one with its key, at
-- the end of the buffer, and the oldest item goes when there are too many.
import Mathlib.Data.List.Dedup
import Mathlib.Data.List.DropRight

namespace recent

variable {α κ : Type*} [DecidableEq κ] (key : α → κ)

/-- The buffer after one more item. -/
def push (capacity : Nat) (buffer : List α) (a : α) : List α :=
  (buffer.filter (key · ≠ key a) ++ [a]).rtake capacity

/-- Of the items with one key only the last, in the order of the list. -/
def latest : List α → List α
  | [] => []
  | a :: l => if key a ∈ l.map key then latest l else a :: latest l

/-! ## The last item of each key -/

variable {key} {l : List α}

theorem keys_latest (l : List α) : (latest key l).map key = (l.map key).dedup := by
  induction l with
  | nil => rfl
  | cons a l ih =>
    unfold latest
    rw [List.map_cons]
    by_cases hmem : key a ∈ l.map key
    · rw [if_pos hmem, List.dedup_cons_of_mem hmem, ih]
    · rw [if_neg hmem, List.dedup_cons_of_notMem hmem, List.map_cons, ih]

theorem nodup_latest (l : List α) : ((latest key l).map key).Nodup := by
  rw [keys_latest]
  exact List.nodup_dedup _

theorem latest_append_one (l : List α) (a : α) :
    latest key (l ++ [a]) = (latest key l).filter (key · ≠ key a) ++ [a] := by
  induction l with
  | nil => simp [latest]
  | cons b l ih =>
    rw [List.cons_append, latest, latest, ih]
    by_cases hmem : key b ∈ l.map key
    · have hmore : key b ∈ (l ++ [a]).map key := by simp_all
      rw [if_pos hmem, if_pos hmore]
    · by_cases hsame : key b = key a
      · have hmore : key b ∈ (l ++ [a]).map key := by simp [hsame]
        rw [if_neg hmem, if_pos hmore, List.filter_cons_of_neg (by simpa using hsame)]
      · have hmore : key b ∉ (l ++ [a]).map key := by simp_all
        rw [if_neg hmem, if_neg hmore, List.filter_cons_of_pos (by simpa using hsame)]
        rfl

variable (key) in
theorem getLast?_latest (l : List α) : (latest key l).getLast? = l.getLast? := by
  induction l using List.reverseRecOn with
  | nil => rfl
  | append_singleton l a _ => rw [latest_append_one, List.getLast?_concat, List.getLast?_concat]

/-! ## The buffer -/

theorem rtake_append {m : List α} {n : Nat} (h : n ≤ m.length) :
    (l ++ m).rtake n = m.rtake n := by
  unfold List.rtake
  rw [List.drop_append, List.drop_eq_nil_of_le (by rw [List.length_append]; omega),
    List.nil_append, List.length_append]
  congr 1
  omega

/-- One item has the key at most. -/
theorem length_filter_ne (h : (l.map key).Nodup) (k : κ) :
    l.length ≤ (l.filter (key · ≠ k)).length + 1 := by
  induction l with
  | nil => simp
  | cons a l ih =>
    rw [List.map_cons, List.nodup_cons] at h
    by_cases hkey : key a = k
    · have hall : l.filter (key · ≠ k) = l := by
        apply List.filter_eq_self.mpr
        intro b hb
        refine decide_eq_true fun heq => h.1 ?_
        rw [hkey, ← heq]
        exact List.mem_map_of_mem hb
      rw [List.filter_cons_of_neg (by simpa using hkey), hall, List.length_cons]
    · have hle := ih h.2
      rw [List.filter_cons_of_pos (by simpa using hkey), List.length_cons, List.length_cons]
      omega

/-- What a full buffer has dropped does not come back, and nothing goes without need. -/
theorem push_rtake {l : List α} (h : (l.map key).Nodup) (capacity : Nat) (a : α) :
    push key capacity (l.rtake capacity) a = push key capacity l a := by
  unfold push
  by_cases hfits : l.length ≤ capacity
  · have hall : l.rtake capacity = l := by
      unfold List.rtake
      rw [Nat.sub_eq_zero_of_le hfits, List.drop_zero]
    rw [hall]
  · have hsplit : l = l.take (l.length - capacity) ++ l.rtake capacity :=
      (List.take_append_drop _ l).symm
    have hlength : (l.rtake capacity).length = capacity := by
      unfold List.rtake
      rw [List.length_drop]
      omega
    have hnodup : ((l.rtake capacity).map key).Nodup := by
      rw [hsplit, List.map_append] at h
      exact (List.nodup_append.mp h).2.1
    have hle := length_filter_ne hnodup (key a)
    conv_rhs => rw [hsplit, List.filter_append, List.append_assoc]
    refine (rtake_append ?_).symm
    rw [List.length_append, List.length_singleton]
    omega

/-- The buffer holds the end of the list of last items. -/
theorem foldl_push (capacity : Nat) (l : List α) :
    l.foldl (push key capacity) [] = (latest key l).rtake capacity := by
  induction l using List.reverseRecOn with
  | nil => simp [latest]
  | append_singleton l a ih =>
    rw [List.foldl_concat, ih, push_rtake (nodup_latest l), latest_append_one]
    rfl

end recent
