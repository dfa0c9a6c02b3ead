-- One page of the history for any limit and any cursor: the cursor goes from a decimal
-- text through an unsigned number into a signed column, and the page is compared with the
-- one that the API document describes.
import Loomic.History

open loomic.frame loomic.history loomic.http_handlers loomic.json

namespace loomic.history_cursor

/-! ## The request -/

/-- The target with both parameters, or without a cursor. -/
def page_target (conv_id : String) (limit : Int) (before : Option UInt64) : String :=
  "/conversations/" ++ conv_id ++ "/messages?limit=" ++ toString limit ++
    (match before with
    | none => ""
    | some before => "&before=" ++ toString before.toNat)

/-- The items of the answer. -/
def page (srv : Server) (conv : Conversation) (limit : Int) (before : Option UInt64) :
    Option (List Json) :=
  srv.get conv (page_target srv.id limit before)

/-! ## What the document says -/

/-- Into `1..100`. -/
def clamp (limit : Int) : Nat := (max 1 (min limit 100)).toNat

def UINT64_MAX : UInt64 := 0xFFFFFFFFFFFFFFFF

/-- The page is the newest messages whose ids are less than the cursor, it grows with the cursor,
and the largest cursor is as good as none. -/
structure AsDocumented (srv : Server) (conv : Conversation) (limit : Int) (before : UInt64) :
    Prop where
  newest : page srv conv limit (some before) =
    some (srv.payload (paging.page Message.key conv.rows before.toNat (clamp limit)))
  grows : conv.rows.length ≤ clamp limit → ∀ smaller ≤ before, ∀ items larger,
    page srv conv limit (some smaller) = some items →
      page srv conv limit (some before) = some larger → items.Sublist larger
  omitted : before = UINT64_MAX → page srv conv limit (some before) = page srv conv limit none

/-! ## What the code makes of the parameters -/

/-- A number that `uint32_t` cannot hold is taken for no limit. -/
def read_limit (limit : Int) : Nat := if 0 ≤ limit ∧ limit < 2 ^ 32 then clamp limit else 50

theorem clamp_bounds (limit : Int) : 1 ≤ clamp limit ∧ clamp limit ≤ 100 := by
  unfold clamp
  omega

/-- The text of a number has no character that ends a parameter. -/
theorem not_mem_int {c : Char} (hc : c.isDigit = false) (hminus : c ≠ '-') (n : Int) :
    c ∉ (toString n).toList := by
  cases n with
  | ofNat n => exact not_mem_toString hc n
  | negSucc n =>
    have htext : toString (Int.negSucc n) = "-" ++ toString (n + 1) := rfl
    have hdigits : c ∉ (toString (n + 1)).toList := not_mem_toString hc (n + 1)
    rw [htext, String.toList_append, List.mem_append, not_or]
    exact ⟨by simpa using hminus, hdigits⟩

theorem clamp_uint (n : UInt64) : (max 1 (min n 100)).toNat = max 1 (min n.toNat 100) := by
  have hmin : (min n 100).toNat = min n.toNat 100 := by
    change (if n ≤ 100 then n else 100).toNat = _
    split
    · simp_all [UInt64.le_iff_toNat_le]
    · simp_all [UInt64.le_iff_toNat_le]
      omega
  change (if 1 ≤ min n 100 then min n 100 else 1).toNat = _
  split <;> simp_all [UInt64.le_iff_toNat_le]

theorem limit_of_text (limit : Int) :
    (limit_of (toString limit) 50 100).toNat = read_limit limit := by
  unfold limit_of read_limit
  cases limit with
  | ofNat n =>
    have htext : toString (Int.ofNat n) = toString n := rfl
    rw [htext, from_chars_number]
    by_cases hlarge : n < 2 ^ 64
    · have hnat : (UInt64.ofNat n).toNat = n := UInt64.toNat_ofNat_of_lt hlarge
      rw [if_pos hlarge]
      dsimp only
      rw [hnat]
      by_cases hsmall : n < 2 ^ 32
      · rw [if_pos hsmall, clamp_uint, hnat, if_pos (by simp; omega)]
        unfold clamp
        simp
        omega
      · rw [if_neg hsmall, if_neg (by simp; omega)]
        rfl
    · rw [if_neg hlarge, if_neg (by simp; omega)]
      rfl
  | negSucc n =>
    have hnone : from_chars (toString (Int.negSucc n)) = none := by
      have htext : toString (Int.negSucc n) = "-" ++ toString (n + 1) := rfl
      rw [htext]
      simp [from_chars, String.toList_append]
    rw [hnone, if_neg (by omega)]
    rfl

/-! ## What the code answers -/

section Page

variable {srv : Server} {conv : Conversation} {limit : Int}

theorem query_pairs_page (before : Option UInt64) :
    query_pairs (page_target srv.id limit before) =
      ("limit", toString limit) :: (before.map fun n => ("before", toString n.toNat)).toList := by
  have hlimit : '&' ∉ (toString limit).toList := not_mem_int (by decide) (by decide) limit
  cases before with
  | none =>
    have htarget : (page_target srv.id limit none).toList =
        ("/conversations/".toList ++ srv.id.toList ++ "/messages".toList) ++
          '?' :: ("limit".toList ++ '=' :: (toString limit).toList) := by
      unfold page_target
      simp [String.toList_append]
    rw [query_pairs_limit _ htarget (path_no_query srv.conv_id.toNat) hlimit, String.ofList_toList]
    rfl
  | some before =>
    have hbefore : '&' ∉ (toString before.toNat).toList := not_mem_toString (by decide) _
    have htarget : (page_target srv.id limit (some before)).toList =
        ("/conversations/".toList ++ srv.id.toList ++ "/messages".toList) ++
          '?' :: ("limit".toList ++ '=' :: (toString limit).toList ++
            '&' :: ("before".toList ++ '=' :: (toString before.toNat).toList)) := by
      unfold page_target
      simp [String.toList_append]
    rw [query_pairs_limit_before _ htarget (path_no_query srv.conv_id.toNat) hlimit hbefore,
      String.ofList_toList, String.ofList_toList]
    rfl

/-- The statement that the request runs. -/
theorem page_eq (before : Option UInt64) :
    page srv conv limit before = some ((conv.select_history (before.getD INT64_MAX)
      (limit_of (toString limit) 50 100)).map (history_json srv.base64_encode)) := by
  have hlimit : query_param (page_target srv.id limit before) "limit" = some (toString limit) := by
    unfold query_param
    rw [query_pairs_page]
    rfl
  have hbefore : ((query_param (page_target srv.id limit before) "before").bind from_chars).getD
      INT64_MAX = before.getD INT64_MAX := by
    unfold query_param
    rw [query_pairs_page]
    cases before with
    | none => rfl
    | some before =>
      change (from_chars (toString before.toNat)).getD INT64_MAX = before
      rw [from_chars_id, Option.getD_some]
  unfold page
  rw [get_rows, hlimit, hbefore, Option.getD_some]

/-- Under the middle of the unsigned range the column compares as the numbers do. -/
theorem page_small {before : UInt64} (h : before.toNat < 2 ^ 63) :
    page srv conv limit (some before) =
      some (srv.payload (paging.page Message.key conv.rows before.toNat (read_limit limit))) := by
  rw [page_eq, Option.getD_some, select_history_eq conv _ h, limit_of_text, List.map_map]
  rfl

/-- From there on the column is negative, and no id is less. -/
theorem page_large {before : UInt64} (h : 2 ^ 63 ≤ before.toNat) :
    page srv conv limit (some before) = some [] := by
  have hnone : conv.rows.filter (·.msg_id.toInt64 < before.toInt64) = [] := by
    apply List.filter_eq_nil_iff.mpr
    intro m _
    have hnegative : before.toInt64.toInt < 0 := by
      change before.toBitVec.toInt < 0
      rw [BitVec.toInt_eq_toNat_cond]
      have hlt := before.toNat_lt
      have hnat : before.toBitVec.toNat = before.toNat := rfl
      split <;> omega
    rw [decide_eq_true_eq, Int64.lt_iff_toInt_lt, toInt_toInt64 m.bounded]
    omega
  rw [page_eq, Option.getD_some, Conversation.select_history, hnone]
  simp

end Page

/-! ## The law -/

section Law

variable {srv : Server} {conv : Conversation} {limit : Int} {before : UInt64}

/-- The rows under the cursor. -/
def under (conv : Conversation) (before : UInt64) : List Message :=
  conv.rows.filter (·.key < before.toNat)

theorem length_payload (rows : List Message) : (srv.payload rows).length = rows.length :=
  List.length_map _

theorem under_sublist {smaller : UInt64} (h : smaller ≤ before) :
    (under conv smaller).Sublist (under conv before) := by
  apply List.monotone_filter_right
  intro m hm
  have hle := UInt64.le_iff_toNat_le.mp h
  simp only [decide_eq_true_eq] at hm ⊢
  omega

theorem under_large (h : 2 ^ 63 ≤ before.toNat) : under conv before = conv.rows := by
  apply List.filter_eq_self.mpr
  intro m _
  have hlt := m.bounded
  exact decide_eq_true (show m.msg_id.toNat < before.toNat by omega)

/-- When the limit counts, the code takes it as it is. -/
def LimitFits (conv : Conversation) (limit : Int) (before : UInt64) : Prop :=
  (0 ≤ limit ∧ limit < 2 ^ 32) ∨ (under conv before).length ≤ min (clamp limit) 50

instance : Decidable (LimitFits conv limit before) := by unfold LimitFits; infer_instance

theorem limit_fits_iff :
    LimitFits conv limit before ↔ min (read_limit limit) (under conv before).length =
      min (clamp limit) (under conv before).length := by
  unfold LimitFits read_limit clamp
  split <;> omega

/-- A page that holds all rows under its cursor has those under a smaller one. -/
theorem page_grows {smaller : UInt64} {items larger : List Json} (hsmall : before.toNat < 2 ^ 63)
    (hsize : conv.rows.length ≤ clamp limit)
    (hlength : min (read_limit limit) (under conv before).length =
      min (clamp limit) (under conv before).length)
    (hle : smaller ≤ before) (hitems : page srv conv limit (some smaller) = some items)
    (hlarger : page srv conv limit (some before) = some larger) : items.Sublist larger := by
  have hall : (under conv before).length ≤ read_limit limit := by
    have hrows : (under conv before).length ≤ conv.rows.length := List.length_filter_le _ _
    omega
  have hnat := UInt64.le_iff_toNat_le.mp hle
  rw [page_small (by omega), Option.some.injEq] at hitems
  rw [page_small hsmall, Option.some.injEq] at hlarger
  have hwhole : paging.page Message.key conv.rows before.toNat (read_limit limit) =
      under conv before := List.take_of_length_le hall
  rw [← hitems, ← hlarger, hwhole]
  exact ((List.take_sublist _ _).trans (under_sublist hle)).map _

/-- A page is right exactly when the conversation is empty, or the cursor has 63 bits and the
limit fits. -/
theorem a_page_is_as_documented_iff_the_cursor_has_63_bits (srv : Server) (conv : Conversation)
    (limit : Int) (before : UInt64) :
    AsDocumented srv conv limit before ↔
      conv.rows = [] ∨ before.toNat < 2 ^ 63 ∧ LimitFits conv limit before := by
  have hclamp := clamp_bounds limit
  constructor
  · intro h
    have hpage := h.newest
    by_cases hsmall : before.toNat < 2 ^ 63
    · refine .inr ⟨hsmall, limit_fits_iff.mpr ?_⟩
      rw [page_small hsmall, Option.some.injEq] at hpage
      have hlength := congrArg List.length hpage
      rw [length_payload, length_payload] at hlength
      simpa [paging.page, under] using hlength
    · left
      rw [page_large (by omega), Option.some.injEq] at hpage
      have hlength := congrArg List.length hpage
      rw [length_payload, paging.page, List.length_take, List.length_nil] at hlength
      change 0 = min (clamp limit) (under conv before).length at hlength
      rw [under_large (by omega)] at hlength
      exact List.length_eq_zero_iff.mp (by omega)
  · rintro (hempty | ⟨hsmall, hfits⟩)
    · have hnil : ∀ cursor, page srv conv limit cursor = some [] := by
        intro cursor
        rw [page_eq, Conversation.select_history, hempty]
        simp
      refine ⟨?_, fun _ smaller _ items larger hitems _ => ?_, fun _ => ?_⟩
      · rw [hnil, paging.page, hempty]
        simp [Server.payload]
      · rw [hnil, Option.some.injEq] at hitems
        simp [← hitems]
      · rw [hnil, hnil]
    · have hlength := limit_fits_iff.mp hfits
      refine ⟨?_, fun hsize smaller hle items larger hitems hlarger => ?_, fun hmax => ?_⟩
      · rw [page_small hsmall]
        exact congrArg (some ∘ srv.payload) (List.take_eq_take_iff.mpr hlength)
      · exact page_grows hsmall hsize hlength hle hitems hlarger
      · subst hmax
        exact absurd hsmall (by decide)

/-- The cursor that the document names finds nothing in a conversation with a message. -/
theorem the_largest_cursor_finds_nothing :
    ¬ AsDocumented member_five ⟨[first_message], List.pairwise_singleton _ _⟩ 50 UINT64_MAX := by
  intro h
  have hpage := h.newest
  rw [page_large (by decide)] at hpage
  cases hpage

end Law

end loomic.history_cursor
