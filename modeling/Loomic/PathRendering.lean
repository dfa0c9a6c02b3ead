-- Route matching (HttpServer.cpp) inverts the rendering of a path. The parts
-- that `split_path` makes are the nonempty segments between the slashes, a
-- pattern matches where its literals agree, and the parameters are bound to the
-- values that the path was rendered from.
import Loomic.HttpServer
import Loomic.Lib.Separators

namespace loomic.path_rendering

open loomic.http_server separators

/-! ## Segments -/

/-- The nonempty segments between the slashes. -/
def segments (s : List Char) : List (List Char) := (s.splitOn '/').filter fun t => t ≠ []

/-- A segment that is not `{name}`. -/
def Literal (p : List Char) : Prop := ∀ name, p ≠ '{' :: (name ++ ['}'])

/-- A target without its query. -/
def cut_query (target : List Char) : List Char := target.takeWhile fun c => c ≠ '?'

theorem split_path_segments (part s : List Char) (h : '/' ∉ part) :
    split_path '/' part s = segments (part ++ s) := by
  induction s generalizing part with
  | nil =>
    rw [List.append_nil, segments, List.splitOn_eq_singleton h, split_path]
    by_cases hpart : part = [] <;> simp [hpart]
  | cons c s ih =>
    by_cases hc : c = '/'
    · subst hc
      have hrest : segments (part ++ '/' :: s) = [part].filter (fun t => t ≠ []) ++ segments s := by
        rw [segments, List.splitOn_append_cons_self_of_not_mem h]
        simp [segments, List.filter_cons]
        split <;> simp
      have htail := ih [] (by simp)
      rw [hrest, split_path, if_pos rfl, htail]
      by_cases hpart : part = [] <;> simp [hpart]
    · have hmem : '/' ∉ part ++ [c] := by
        simp [h, Ne.symm hc]
      rw [split_path, if_neg hc, ih (part ++ [c]) hmem]
      simp

theorem split_path_eq (s : List Char) : split_path '/' [] s = segments s := by
  rw [split_path_segments [] s (by simp), List.nil_append]

theorem is_param_iff (p : List Char) : is_param p ↔ ¬ Literal p := by
  unfold Literal
  rw [not_forall]
  constructor
  · intro h
    simp only [is_param, Bool.and_eq_true, decide_eq_true_eq, beq_iff_eq] at h
    obtain ⟨⟨hlen, hhead⟩, hlast⟩ := h
    obtain ⟨rest, rfl⟩ := List.head?_eq_some_iff.1 hhead
    have hne : rest ≠ [] := by
      rintro rfl
      simp at hlen
    rw [List.getLast?_cons_of_ne_nil hne] at hlast
    obtain ⟨name, rfl⟩ := List.getLast?_eq_some_iff.1 hlast
    exact ⟨name, not_not.2 rfl⟩
  · rintro ⟨name, h⟩
    rw [not_not.1 h]
    simp [is_param, List.getLast?_cons]

theorem match_parts_isSome (params : PathParams) (pat tgt : List (List Char)) :
    (match_parts params pat tgt).isSome ↔
      pat.length = tgt.length ∧ ∀ pt ∈ pat.zip tgt, Literal pt.1 → pt.1 = pt.2 := by
  induction pat generalizing params tgt with
  | nil => cases tgt <;> simp [match_parts]
  | cons p pat ih =>
    cases tgt with
    | nil => simp [match_parts]
    | cons t tgt =>
      have hparam := is_param_iff p
      rw [match_parts]
      by_cases hp : is_param p
      · rw [if_pos hp, ih]
        simp [hparam.1 hp]
      · have hlit : Literal p := not_not.1 (mt hparam.2 hp)
        rw [if_neg hp]
        by_cases heq : p = t
        · rw [if_neg (not_not.2 heq), ih]
          simp [heq]
        · simp [heq, hlit]

/-- The matching of a path, in segments. -/
theorem match_path_eq (pattern target : String) :
    match_path pattern target =
      match_parts [] (segments pattern.toList) (segments (cut_query target.toList)) := by
  rw [match_path, split_path_eq, split_path_eq, cut_query]

/-! ## Rendered targets -/

/-- The names of the parameters of a pattern. -/
def names (pattern : String) : List String :=
  ((segments pattern.toList).filter is_param).map param_name

/-- A segment of the pattern with the value in the place of the parameter. -/
def fill (value : String → List Char) (p : List Char) : List Char :=
  if is_param p then value (param_name p) else p

/-- The segments behind one another, each behind one slash and the `extra` ones. -/
def render (extra : Nat → Nat) : List (List Char) → List Char
  | [] => []
  | t :: rest => List.replicate (extra 0 + 1) '/' ++ (t ++ render (fun i => extra (i + 1)) rest)

/-- The target for an assignment, with the slashes behind it and its query. -/
def target_of (pattern : String) (value : String → List Char) (extra : Nat → Nat)
    (trailing : Nat) (query : Option (List Char)) : String :=
  String.ofList (render extra ((segments pattern.toList).map (fill value)) ++
    (List.replicate trailing '/' ++ (query.map fun q => '?' :: q).getD []))

theorem segment_plain {s t : List Char} (h : t ∈ segments s) : t ≠ [] ∧ '/' ∉ t := by
  obtain ⟨hmem, hne⟩ := List.mem_filter.1 h
  exact ⟨by simpa using hne, fun hslash => (mem_piece hmem hslash).2 rfl⟩

theorem mem_of_mem_segments {c : Char} {s t : List Char} (h : t ∈ segments s) (hc : c ∈ t) :
    c ∈ s := (mem_piece (List.mem_filter.1 h).1 hc).1

theorem segments_slash (s : List Char) : segments ('/' :: s) = segments s := by
  simp [segments, List.splitOn_cons_eq_if_modifyHead]

theorem segments_slashes (n : Nat) (s : List Char) :
    segments (List.replicate n '/' ++ s) = segments s := by
  induction n with
  | zero => simp
  | succ n ih => rw [List.replicate_succ, List.cons_append, segments_slash, ih]

theorem segments_cons {t s : List Char} (hne : t ≠ []) (ht : '/' ∉ t) :
    segments (t ++ '/' :: s) = t :: segments s := by
  rw [segments, List.splitOn_append_cons_self_of_not_mem ht]
  simp [segments, hne]

theorem segments_single {t : List Char} (hne : t ≠ []) (ht : '/' ∉ t) : segments t = [t] := by
  rw [segments, List.splitOn_eq_singleton ht]
  simp [hne]

/-- The segments of what is rendered are the ones that it was rendered from. -/
theorem segments_render (extra : Nat → Nat) (ts : List (List Char)) (trailing : Nat)
    (h : ∀ t ∈ ts, t ≠ [] ∧ '/' ∉ t) :
    segments (render extra ts ++ List.replicate trailing '/') = ts := by
  induction ts generalizing extra with
  | nil =>
    have hnone := segments_slashes trailing []
    rw [List.append_nil] at hnone
    rw [render, List.nil_append, hnone]
    simp [segments]
  | cons t ts ih =>
    obtain ⟨hne, hslash⟩ := h t List.mem_cons_self
    have hrest := ih (fun i => extra (i + 1)) fun t' ht' => h t' (List.mem_cons_of_mem _ ht')
    rw [render, List.append_assoc, segments_slashes, List.append_assoc]
    -- The segment ends at the slash of the next one, at a trailing slash or at the end.
    cases ts with
    | nil =>
      cases trailing with
      | zero => simpa [render] using segments_single hne hslash
      | succ trailing =>
        rw [render, List.nil_append, List.replicate_succ] at hrest ⊢
        rw [segments_slash] at hrest
        rw [segments_cons hne hslash, hrest]
    | cons t' ts =>
      rw [render, List.replicate_succ, List.cons_append, List.cons_append] at hrest ⊢
      rw [segments_slash] at hrest
      rw [segments_cons hne hslash, hrest]

theorem mem_render {c : Char} {extra : Nat → Nat} {ts : List (List Char)}
    (h : c ∈ render extra ts) : c = '/' ∨ ∃ t ∈ ts, c ∈ t := by
  induction ts generalizing extra with
  | nil => simp [render] at h
  | cons t ts ih =>
    rw [render] at h
    rcases List.mem_append.1 h with h | h
    · exact .inl (List.eq_of_mem_replicate h)
    rcases List.mem_append.1 h with h | h
    · exact .inr ⟨t, List.mem_cons_self, h⟩
    · rcases ih h with h | ⟨t', ht', hc⟩
      · exact .inl h
      · exact .inr ⟨t', List.mem_cons_of_mem _ ht', hc⟩

/-- The query is cut off, and no more. -/
theorem cut_query_append {path : List Char} (h : '?' ∉ path) (query : Option (List Char)) :
    cut_query (path ++ (query.map fun q => '?' :: q).getD []) = path := by
  have hall : ∀ c ∈ path, decide (c ≠ '?') = true := by
    intro c hc
    have hne : c ≠ '?' := fun heq => h (heq ▸ hc)
    simpa using hne
  rw [cut_query, List.takeWhile_append_of_pos hall]
  cases query <;> simp

/-- What the parameters are bound to, the last one first. -/
theorem match_parts_fill (params : PathParams) (pat : List (List Char))
    (value : String → List Char) :
    match_parts params pat (pat.map (fill value)) =
      some ((((pat.filter is_param).map param_name).map fun name =>
        (name, String.ofList (value name))).reverse ++ params) := by
  induction pat generalizing params with
  | nil => simp [match_parts]
  | cons p pat ih =>
    rw [List.map_cons, match_parts]
    by_cases hp : is_param p
    · rw [if_pos hp, ih]
      simp [fill, hp]
    · rw [if_neg hp]
      simp [fill, hp, ih]

theorem lookup_assignment (names : List String) (f : String → String) (name : String) :
    (names.map fun name => (name, f name)).lookup name =
      if name ∈ names then some (f name) else none := by
  induction names with
  | nil => simp
  | cons n names ih =>
    rw [List.map_cons, List.lookup_cons, ih]
    by_cases h : name = n
    · subst h
      simp
    · have hb : (name == n) = false := by simpa using h
      rw [hb]
      simp [h]

/-- A rendered target matches its pattern and binds what it was rendered from. -/
theorem match_path_target_of (pattern : String) (value : String → List Char)
    (hliteral : ∀ p ∈ segments pattern.toList, Literal p → '?' ∉ p)
    (hvalue : ∀ name ∈ names pattern, value name ≠ [] ∧ '/' ∉ value name ∧ '?' ∉ value name)
    (extra : Nat → Nat) (trailing : Nat) (query : Option (List Char)) :
    match_path pattern (target_of pattern value extra trailing query) =
      some ((names pattern).reverse.map fun name => (name, String.ofList (value name))) := by
  have hfill : ∀ t ∈ (segments pattern.toList).map (fill value), t ≠ [] ∧ '/' ∉ t ∧ '?' ∉ t := by
    intro t ht
    obtain ⟨p, hp, rfl⟩ := List.mem_map.1 ht
    unfold fill
    by_cases hparam : is_param p
    · rw [if_pos hparam]
      exact hvalue _ (List.mem_map.2 ⟨p, List.mem_filter.2 ⟨hp, hparam⟩, rfl⟩)
    · rw [if_neg hparam]
      have hlit : Literal p := not_not.1 (mt (is_param_iff p).2 hparam)
      exact ⟨(segment_plain hp).1, (segment_plain hp).2, hliteral p hp hlit⟩
  have hquestion : '?' ∉ render extra ((segments pattern.toList).map (fill value)) ++
      List.replicate trailing '/' := by
    intro hmem
    rcases List.mem_append.1 hmem with hmem | hmem
    · rcases mem_render hmem with h | ⟨t, ht, hc⟩
      · cases h
      · exact (hfill t ht).2.2 hc
    · cases List.eq_of_mem_replicate hmem
  have hsegments := segments_render extra ((segments pattern.toList).map (fill value)) trailing
    fun t ht => ⟨(hfill t ht).1, (hfill t ht).2.1⟩
  rw [match_path_eq, target_of, String.toList_ofList, ← List.append_assoc,
    cut_query_append hquestion, hsegments, match_parts_fill, List.append_nil, ← List.map_reverse]
  rfl

/-- Matching compares the segments at the literals, and it inverts the rendering of paths
whose literals have no `?`. -/
theorem matching_inverts_rendering :
    (∀ pattern target : String, (match_path pattern target).isSome ↔
      (segments pattern.toList).length = (segments (cut_query target.toList)).length ∧
        ∀ pt ∈ (segments pattern.toList).zip (segments (cut_query target.toList)),
          Literal pt.1 → pt.1 = pt.2) ∧
    ∀ (pattern : String) (value : String → List Char),
      (∀ p ∈ segments pattern.toList, Literal p → '?' ∉ p) →
      (∀ name ∈ names pattern, value name ≠ [] ∧ '/' ∉ value name ∧ '?' ∉ value name) →
      ∀ (extra : Nat → Nat) (trailing : Nat) (query : Option (List Char)),
        ∃ params, match_path pattern (target_of pattern value extra trailing query) = some params ∧
          ∀ name, params.lookup name =
            if name ∈ names pattern then some (String.ofList (value name)) else none := by
  refine ⟨fun pattern target => ?_, fun pattern value hliteral hvalue extra trailing query => ?_⟩
  · rw [match_path_eq]
    exact match_parts_isSome [] _ _
  · refine ⟨_, match_path_target_of pattern value hliteral hvalue extra trailing query, ?_⟩
    intro name
    rw [lookup_assignment]
    simp

/-- A literal with a `?` never matches: the target is cut there and the pattern is not. -/
theorem a_literal_question_mark_never_matches :
    names "/a?b" = [] ∧ target_of "/a?b" (fun _ => []) (fun _ => 0) 0 none = "/a?b" ∧
      match_path "/a?b" (target_of "/a?b" (fun _ => []) (fun _ => 0) 0 none) = none := by
  decide

end loomic.path_rendering
