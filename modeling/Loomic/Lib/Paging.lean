-- Reading a store page by page: each request asks for the rows under a cursor,
-- the largest keys first, and a full page moves the cursor to its last row. The
-- store may change between the requests.
import Mathlib.Data.List.Basic

namespace paging

variable {ρ : Type*} (key : ρ → Nat)

/-- The keys go down. -/
def Descending (rows : List ρ) : Prop := rows.Pairwise fun a b => key b < key a

/-- The first rows under the cursor. -/
def page (rows : List ρ) (before size : Nat) : List ρ :=
  (rows.filter (key · < before)).take size

/-- The requests from the `n`-th one on, until a page is not full. `none` when the fuel runs
out. -/
def pages (stores : Nat → List ρ) (size : Nat) : Nat → Nat → Nat → Option (List (List ρ))
  | 0, _, _ => none
  | fuel + 1, n, before =>
    let p := page key (stores n) before size
    if p.length = size then
      match p.getLast? with
      | none => some [p]
      | some last => (pages stores size fuel (n + 1) (key last)).map (p :: ·)
    else some [p]

/-- The row is in one of the pages and in no other. -/
def InOnePage (row : ρ) (ps : List (List ρ)) : Prop :=
  ∃ ps₁ p ps₂, ps = ps₁ ++ p :: ps₂ ∧ row ∈ p ∧ ∀ q ∈ ps₁ ++ ps₂, row ∉ q

variable {key}

/-! ## One page -/

section Page

variable {rows : List ρ} {before size : Nat} {row : ρ}

theorem mem_page (h : row ∈ page key rows before size) : row ∈ rows ∧ key row < before := by
  have hmem := List.mem_filter.mp (List.mem_of_mem_take h)
  exact ⟨hmem.1, of_decide_eq_true hmem.2⟩

theorem descending_page (h : Descending key rows) : Descending key (page key rows before size) :=
  (h.filter _).sublist (List.take_sublist _ _)

variable (size) in
/-- A row under the cursor is in the page, or the page is full of larger keys. -/
theorem page_cut (h : Descending key rows) (hrow : row ∈ rows) (hbefore : key row < before) :
    row ∈ page key rows before size ∨
      (page key rows before size).length = size ∧
        ∀ r ∈ page key rows before size, key row < key r := by
  have hmem : row ∈ rows.filter (key · < before) :=
    List.mem_filter.mpr ⟨hrow, decide_eq_true hbefore⟩
  have hdesc : Descending key (rows.filter (key · < before)) := h.filter _
  unfold page
  generalize rows.filter (key · < before) = under at hmem hdesc
  obtain ⟨i, hi, rfl⟩ := List.getElem_of_mem hmem
  by_cases hin : i < size
  · left
    exact List.mem_take_iff_getElem.mpr ⟨i, by omega, rfl⟩
  · right
    refine ⟨by rw [List.length_take]; omega, fun r hr => ?_⟩
    obtain ⟨k, hk, rfl⟩ := List.mem_take_iff_getElem.mp hr
    exact List.pairwise_iff_getElem.mp hdesc k i (by omega) hi (by omega)

/-- The last row has the smallest key. -/
theorem last_le {last : ρ} (h : Descending key rows) (hlast : rows.getLast? = some last)
    (hrow : row ∈ rows) : key last ≤ key row := by
  obtain ⟨init, rfl⟩ : ∃ init, rows = init ++ [last] := List.getLast?_eq_some_iff.mp hlast
  rcases List.mem_append.mp hrow with hinit | hsame
  · exact Nat.le_of_lt ((List.pairwise_append.mp h).2.2 row hinit last (List.mem_singleton.mpr rfl))
  · exact Nat.le_of_eq (congrArg key (List.mem_singleton.mp hsame).symm)

end Page

/-! ## All pages -/

section Pages

variable {stores : Nat → List ρ} {size : Nat}

/-- Each full page lowers the cursor, so the requests come to an end. -/
theorem pages_end (n before : Nat) :
    ∃ fuel ps, pages key stores size fuel n before = some ps := by
  induction before using Nat.strongRecOn generalizing n with
  | ind before ih =>
    generalize hp : page key (stores n) before size = p
    by_cases hfull : p.length = size
    · cases hlast : p.getLast? with
      | none => exact ⟨1, [p], by simp [pages, hp, hlast]⟩
      | some last =>
        have hmem : last ∈ page key (stores n) before size := hp ▸ List.mem_of_getLast? hlast
        obtain ⟨fuel, ps, hps⟩ := ih (key last) (mem_page hmem).2 (n + 1)
        exact ⟨fuel + 1, p :: ps, by simp [pages, hp, hfull, hlast, hps]⟩
    · exact ⟨1, [p], by simp [pages, hp, hfull]⟩

/-- What a finished reading begins with, and how it goes on. -/
theorem pages_cases {fuel n before : Nat} {ps : List (List ρ)} (hsize : 0 < size)
    (h : pages key stores size fuel n before = some ps) :
    (ps = [page key (stores n) before size] ∧
      (page key (stores n) before size).length ≠ size) ∨
    ∃ fuel' last rest, fuel = fuel' + 1 ∧
      (page key (stores n) before size).getLast? = some last ∧
      pages key stores size fuel' (n + 1) (key last) = some rest ∧
      ps = page key (stores n) before size :: rest := by
  cases fuel with
  | zero => cases h
  | succ fuel =>
    unfold pages at h
    dsimp only at h
    split at h
    · rename_i hfull
      split at h
      · rename_i hlast
        rw [List.getLast?_eq_none_iff.mp hlast] at hfull
        exact absurd hfull (by simp only [List.length_nil]; omega)
      · rename_i last hlast
        obtain ⟨rest, hrest, rfl⟩ := Option.map_eq_some_iff.mp h
        exact .inr ⟨fuel, last, rest, rfl, hlast, hrest, rfl⟩
    · rename_i hshort
      obtain rfl := Option.some.inj h
      exact .inl ⟨rfl, hshort⟩

theorem pages_under {fuel n before : Nat} {ps : List (List ρ)} (hsize : 0 < size)
    (h : pages key stores size fuel n before = some ps) :
    ∀ row ∈ ps.flatten, key row < before := by
  induction fuel generalizing n before ps with
  | zero => cases h
  | succ fuel ih =>
    rcases pages_cases hsize h with ⟨rfl, _⟩ | ⟨fuel', last, rest, hfuel, hlast, hrest, rfl⟩
    · intro row hrow
      rw [List.flatten_cons, List.flatten_nil, List.append_nil] at hrow
      exact (mem_page hrow).2
    · obtain rfl := Nat.succ.inj hfuel
      intro row hrow
      rw [List.flatten_cons] at hrow
      rcases List.mem_append.mp hrow with hpage | hmem
      · exact (mem_page hpage).2
      · exact Nat.lt_trans (ih hrest row hmem) (mem_page (List.mem_of_getLast? hlast)).2

/-- From page to page the keys go down, too. -/
theorem descending_pages {fuel n before : Nat} {ps : List (List ρ)} (hsize : 0 < size)
    (hstores : ∀ n, Descending key (stores n))
    (h : pages key stores size fuel n before = some ps) : Descending key ps.flatten := by
  induction fuel generalizing n before ps with
  | zero => cases h
  | succ fuel ih =>
    rcases pages_cases hsize h with ⟨rfl, _⟩ | ⟨fuel', last, rest, hfuel, hlast, hrest, rfl⟩
    · rw [List.flatten_cons, List.flatten_nil, List.append_nil]
      exact descending_page (hstores n)
    · obtain rfl := Nat.succ.inj hfuel
      rw [List.flatten_cons]
      refine List.pairwise_append.mpr ⟨descending_page (hstores n), ih hrest, ?_⟩
      intro a ha b hb
      exact Nat.lt_of_lt_of_le (pages_under hsize hrest b hb)
        (last_le (descending_page (hstores n)) hlast ha)

/-- A row that stays in the store is read. -/
theorem mem_pages {fuel n before : Nat} {ps : List (List ρ)} {row : ρ} (hsize : 0 < size)
    (hstores : ∀ n, Descending key (stores n)) (hrow : ∀ n, row ∈ stores n)
    (hbefore : key row < before) (h : pages key stores size fuel n before = some ps) :
    row ∈ ps.flatten := by
  induction fuel generalizing n before ps with
  | zero => cases h
  | succ fuel ih =>
    have hcut := page_cut size (hstores n) (hrow n) hbefore
    rcases pages_cases hsize h with ⟨rfl, hshort⟩ | ⟨fuel', last, rest, hfuel, hlast, hrest, rfl⟩
    · rw [List.flatten_cons, List.flatten_nil, List.append_nil]
      exact hcut.resolve_right fun hfull => hshort hfull.1
    · obtain rfl := Nat.succ.inj hfuel
      rw [List.flatten_cons, List.mem_append]
      rcases hcut with hpage | ⟨_, hlarger⟩
      · exact .inl hpage
      · exact .inr (ih (hlarger last (List.mem_of_getLast? hlast)) hrest)

theorem InOnePage.mem_flatten {row : ρ} {ps : List (List ρ)} (h : InOnePage row ps) :
    row ∈ ps.flatten := by
  obtain ⟨ps₁, p, ps₂, rfl, hmem, _⟩ := h
  exact List.mem_flatten.mpr ⟨p, List.mem_append_right _ List.mem_cons_self, hmem⟩

/-- With keys that go down, a row that is read is in one page. -/
theorem in_one_page {ps : List (List ρ)} {row : ρ} (h : Descending key ps.flatten)
    (hrow : row ∈ ps.flatten) : InOnePage row ps := by
  obtain ⟨p, hp, hmem⟩ := List.mem_flatten.mp hrow
  obtain ⟨ps₁, ps₂, rfl⟩ := List.append_of_mem hp
  refine ⟨ps₁, p, ps₂, rfl, hmem, fun q hq hin => ?_⟩
  rw [List.flatten_append, List.flatten_cons] at h
  obtain ⟨_, hrest, hfirst⟩ := List.pairwise_append.mp h
  rcases List.mem_append.mp hq with hq | hq
  · have hlt := hfirst row (List.mem_flatten.mpr ⟨q, hq, hin⟩) row (List.mem_append_left _ hmem)
    exact absurd hlt (Nat.lt_irrefl _)
  · have hlt := (List.pairwise_append.mp hrest).2.2 row hmem row
      (List.mem_flatten.mpr ⟨q, hq, hin⟩)
    exact absurd hlt (Nat.lt_irrefl _)

end Pages

end paging
