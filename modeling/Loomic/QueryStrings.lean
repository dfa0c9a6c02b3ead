-- The readers of the query string. `query_param` (MessagesHandler.cpp and
-- UsersHandler.cpp) looks for one key, and `parse_query` (ConversationsHandler.cpp)
-- makes a map of all keys first. The characters of a target are its octets.
import Loomic.HttpHandlers
import Loomic.Lib.Separators

open separators
open loomic.http_handlers (cut_at cut_at_append query_pairs query_param)

namespace loomic.query_strings

/-! ## The code -/

/-- `find(c)`. `npos` is `none`. -/
def find (c : Char) (s : List Char) : Option Nat := s.idxOf? c

/-- `substr(pos)`. `none` is the exception `out_of_range`. -/
def substr (s : List Char) (pos : Nat) : Option (List Char) :=
  if pos ≤ s.length then some (s.drop pos) else none

/-- `(amp == npos) ? qs : qs.substr(0, amp)`. -/
def first_pair (qs : List Char) : Option Nat → List Char
  | none => qs
  | some amp => qs.take amp

theorem substr_shortens {s t : List Char} {pos : Nat} (hs : s ≠ [])
    (h : substr s (pos + 1) = some t) : t.length < s.length := by
  have hlen := List.length_pos_of_ne_nil hs
  unfold substr at h
  split at h
  · cases h
    rw [List.length_drop]
    omega
  · cases h

/-- `eq`, if it is no `npos` and the key stands before it. -/
def key_end (key : String) (pair : List Char) : Option Nat :=
  (find '=' pair).filter fun eq => String.ofList (pair.take eq) = key

/-- The loop of `query_param`. -/
def query_param_loop (key : String) (qs : List Char) : Option String :=
  if _hqs : qs = [] then some ""
  else
    let amp := find '&' qs
    let pair := first_pair qs amp
    match key_end key pair with
    | some eq => (substr pair (eq + 1)).map String.ofList
    | none =>
      match amp with
      | none => some ""
      | some amp =>
        match _h : substr qs (amp + 1) with
        | none => none
        | some qs => query_param_loop key qs
termination_by qs.length
decreasing_by exact substr_shortens (by assumption) (by assumption)

/-- The text that both files have. `none` is an exception. -/
def query_value (target key : String) : Option String :=
  match find '?' target.toList with
  | none => some ""
  | some qpos => (substr target.toList (qpos + 1)).bind (query_param_loop key)

def messages_handler.query_param (target key : String) : Option String := query_value target key

def users_handler.query_param (target key : String) : Option String := query_value target key

/-- `std::unordered_map<std::string, std::string>`. -/
abbrev Params := AList fun _ : String => String

/-- A pair without `=` is passed over. -/
def emplace_pair (result : Params) (pair : List Char) : Option Params :=
  match find '=' pair with
  | none => some result
  | some eq => (substr pair (eq + 1)).map fun value =>
    emplace result (String.ofList (pair.take eq)) (String.ofList value)

/-- The loop of `parse_query`. -/
def parse_query_loop (result : Params) (qs : List Char) : Option Params :=
  if _hqs : qs = [] then some result
  else
    let amp := find '&' qs
    let pair := first_pair qs amp
    match emplace_pair result pair with
    | none => none
    | some result =>
      match amp with
      | none => some result
      | some amp =>
        match _h : substr qs (amp + 1) with
        | none => none
        | some qs => parse_query_loop result qs
termination_by qs.length
decreasing_by exact substr_shortens (by assumption) (by assumption)

def conversations_handler.parse_query (target : String) : Option Params :=
  match find '?' target.toList with
  | none => some ∅
  | some qpos => (substr target.toList (qpos + 1)).bind (parse_query_loop ∅)

/-! ## Where the loops go on -/

theorem find_none {c : Char} {s : List Char} (h : c ∉ s) : find c s = none :=
  List.idxOf?_eq_none_iff.2 h

theorem find_piece {c : Char} {piece : List Char} (h : c ∉ piece) (rest : List Char) :
    find c (piece ++ c :: rest) = some piece.length := idxOf_piece h rest

theorem substr_piece (c : Char) (piece rest : List Char) :
    substr (piece ++ c :: rest) (piece.length + 1) = some rest := by
  have hlen : piece.length + 1 ≤ (piece ++ c :: rest).length := by simp
  rw [substr, if_pos hlen, List.drop_append]
  simp

/-- The key and the value of a pair with `=`. -/
def read_pair (pair : List Char) : Option (String × String) :=
  (cut_at '=' pair).map fun (key, value) => (String.ofList key, String.ofList value)

theorem read_pair_none {pair : List Char} (h : '=' ∉ pair) : read_pair pair = none := by
  rw [read_pair, cut_at, if_neg h, Option.map_none]

theorem read_pair_some {key : List Char} (h : '=' ∉ key) (value : List Char) :
    read_pair (key ++ '=' :: value) = some (String.ofList key, String.ofList value) := by
  rw [read_pair, cut_at_append h, Option.map_some]

/-- What a pair gives to the search. -/
theorem key_end_cases (key : String) (pair : List Char) :
    (key_end key pair = none ∧ (read_pair pair).toList.lookup key = none) ∨
      ∃ eq value, key_end key pair = some eq ∧ substr pair (eq + 1) = some value ∧
        (read_pair pair).toList.lookup key = some (String.ofList value) := by
  by_cases h : '=' ∈ pair
  · obtain ⟨k, v, rfl, hk⟩ := List.eq_append_cons_of_mem h
    have hfind := find_piece hk v
    rw [read_pair_some hk, key_end, hfind, Option.filter_some, List.take_left]
    by_cases heq : String.ofList k = key
    · refine .inr ⟨k.length, v, ?_, substr_piece '=' k v, ?_⟩
      · simp [heq]
      · simp [heq]
    · refine .inl ⟨?_, ?_⟩
      · simp [heq]
      · rw [Option.toList_some, List.lookup_cons, beq_false_of_ne (Ne.symm heq), List.lookup_nil]
  · refine .inl ⟨?_, ?_⟩
    · rw [key_end, find_none h, Option.filter_none]
    · rw [read_pair_none h]
      rfl

theorem emplace_pair_eq (result : Params) (pair : List Char) :
    emplace_pair result pair = some (emplace_all result (read_pair pair).toList) := by
  by_cases h : '=' ∈ pair
  · obtain ⟨k, v, rfl, hk⟩ := List.eq_append_cons_of_mem h
    rw [read_pair_some hk, emplace_pair, find_piece hk]
    dsimp only
    rw [substr_piece, List.take_left]
    rfl
  · rw [read_pair_none h, emplace_pair, find_none h]
    rfl

/-! ## The search -/

/-- The last pair of the search. It is empty behind a `&` at the end. -/
theorem query_param_loop_last (key : String) {pair : List Char} (h : '&' ∉ pair) :
    query_param_loop key pair = some (((read_pair pair).toList.lookup key).getD "") := by
  rw [query_param_loop]
  by_cases hnil : pair = []
  · subst hnil
    rfl
  · rw [dif_neg hnil, find_none h]
    dsimp only [first_pair]
    rcases key_end_cases key pair with ⟨hend, hlookup⟩ | ⟨eq, value, hend, hvalue, hlookup⟩
    · rw [hend, hlookup]
      rfl
    · rw [hend, hlookup]
      dsimp only
      rw [hvalue]
      rfl

theorem query_param_loop_more (key : String) {pair : List Char} (h : '&' ∉ pair)
    (rest : List Char) :
    query_param_loop key (pair ++ '&' :: rest) =
      ((read_pair pair).toList.lookup key).elim (query_param_loop key rest) some := by
  have hne : pair ++ '&' :: rest ≠ [] := by simp
  rw [query_param_loop, dif_neg hne, find_piece h]
  dsimp only [first_pair]
  rw [List.take_left]
  rcases key_end_cases key pair with ⟨hend, hlookup⟩ | ⟨eq, value, hend, hvalue, hlookup⟩
  · rw [hend, hlookup]
    dsimp only
    rw [substr_piece]
    rfl
  · rw [hend, hlookup]
    dsimp only
    rw [hvalue]
    rfl

/-- The search never throws and gives the value of the first pair with the key. -/
theorem query_param_loop_eq (key : String) (qs : List Char) :
    query_param_loop key qs = some (((read_pieces '&' read_pair qs).lookup key).getD "") := by
  induction qs using pieces_induction '&' with
  | last pair h => rw [query_param_loop_last key h, read_last read_pair h]
  | more pair rest h ih =>
    rw [query_param_loop_more key h, read_more read_pair h, List.lookup_append, ih]
    cases (read_pair pair).toList.lookup key <;> rfl

/-! ## The map -/

theorem parse_query_loop_last (result : Params) {pair : List Char} (h : '&' ∉ pair) :
    parse_query_loop result pair = some (emplace_all result (read_pair pair).toList) := by
  rw [parse_query_loop]
  by_cases hnil : pair = []
  · subst hnil
    rfl
  · rw [dif_neg hnil, find_none h]
    dsimp only [first_pair]
    rw [emplace_pair_eq]

theorem parse_query_loop_more (result : Params) {pair : List Char} (h : '&' ∉ pair)
    (rest : List Char) :
    parse_query_loop result (pair ++ '&' :: rest) =
      parse_query_loop (emplace_all result (read_pair pair).toList) rest := by
  have hne : pair ++ '&' :: rest ≠ [] := by simp
  rw [parse_query_loop, dif_neg hne, find_piece h]
  dsimp only [first_pair]
  rw [List.take_left, emplace_pair_eq]
  dsimp only
  rw [substr_piece]

/-- The map is built of all pairs in their order, and nothing throws. -/
theorem parse_query_loop_eq (result : Params) (qs : List Char) :
    parse_query_loop result qs = some (emplace_all result (read_pieces '&' read_pair qs)) := by
  induction qs using pieces_induction '&' generalizing result with
  | last pair h => rw [parse_query_loop_last result h, read_last read_pair h]
  | more pair rest h ih =>
    rw [parse_query_loop_more result h, read_more read_pair h, ih, emplace_all_append]

/-! ## The readers -/

/-- The query begins behind the first `?`. -/
theorem query_cases (target : String) :
    (find '?' target.toList = none ∧ query_pairs target = []) ∨
      ∃ qpos qs, find '?' target.toList = some qpos ∧ substr target.toList (qpos + 1) = some qs ∧
        query_pairs target = read_pieces '&' read_pair qs := by
  unfold query_pairs
  by_cases h : '?' ∈ target.toList
  · obtain ⟨path, qs, htarget, hpath⟩ := List.eq_append_cons_of_mem h
    refine .inr ⟨path.length, qs, ?_, ?_, ?_⟩
    · rw [htarget, find_piece hpath]
    · rw [htarget, substr_piece]
    · rw [htarget, cut_at_append hpath]
      rfl
  · refine .inl ⟨find_none h, ?_⟩
    rw [cut_at, if_neg h]

/-- Both searches give what the handlers take for the value, and never throw. -/
theorem query_value_eq (target key : String) :
    query_value target key = some ((query_param target key).getD "") := by
  unfold query_value query_param
  rcases query_cases target with ⟨hfind, hpairs⟩ | ⟨qpos, qs, hfind, hqs, hpairs⟩
  · rw [hfind, hpairs]
    rfl
  · rw [hfind, hpairs]
    dsimp only
    rw [hqs, Option.bind_some, query_param_loop_eq]

theorem parse_query_eq (target : String) :
    conversations_handler.parse_query target = some (emplace_all ∅ (query_pairs target)) := by
  unfold conversations_handler.parse_query
  rcases query_cases target with ⟨hfind, hpairs⟩ | ⟨qpos, qs, hfind, hqs, hpairs⟩
  · rw [hfind, hpairs]
    rfl
  · rw [hfind, hpairs]
    dsimp only
    rw [hqs, Option.bind_some, parse_query_loop_eq]

/-- The three readers give the value of the first pair with the key, for every target and
every key. The two searches give an empty value where the map has no such key. -/
theorem the_query_readers_agree (target : String) :
    ∃ params, conversations_handler.parse_query target = some params ∧
      ∀ key, messages_handler.query_param target key = some ((params.lookup key).getD "") ∧
        users_handler.query_param target key = some ((params.lookup key).getD "") ∧
        params.lookup key = (query_pairs target).lookup key := by
  refine ⟨_, parse_query_eq target, fun key => ?_⟩
  have hlookup := lookup_emplace_empty (query_pairs target) key
  have hvalue : query_value target key =
      some (((emplace_all ∅ (query_pairs target)).lookup key).getD "") := by
    rw [query_value_eq, hlookup, query_param]
  exact ⟨hvalue, hvalue, hlookup⟩

/-- The second `?` and the second `=` are part of a value. -/
example : users_handler.query_param "/users/search?&q&q=a=?&=b&q=c&" "q" = some "a=?" := by
  have hvalue : query_param "/users/search?&q&q=a=?&=b&q=c&" "q" = some "a=?" := by decide
  rw [users_handler.query_param, query_value_eq, hvalue]
  rfl

end loomic.query_strings
