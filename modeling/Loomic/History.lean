-- The history of a conversation, page by page: GET /conversations/{id}/messages
-- (ConversationsHandler::get_messages and the SELECT of CassandraClient), and the
-- browser that asks for it (loadConversationHistory) while the table changes.
import Mathlib.Data.List.TakeWhile
import Loomic.HttpAnswers
import Loomic.Lib.Paging

open loomic.auth_handler loomic.frame loomic.json loomic.http_handlers coroutines
open loomic.http_server (Response)

namespace loomic.history

/-! ## The table -/

/-- A row whose id is a positive number of 63 bits. -/
structure Message extends HistoryRow where
  positive : 0 < msg_id.toNat
  bounded : msg_id.toNat < 2 ^ 63

/-- The id, as a number. -/
def Message.key (m : Message) : Nat := m.msg_id.toNat

/-- The rows of one conversation: `CLUSTERING ORDER BY (msg_id DESC)`. -/
structure Conversation where
  rows : List Message
  clustered : paging.Descending Message.key rows

/-- A row takes the place of one with its key. -/
def Conversation.insert (conv : Conversation) (m : Message) : Conversation where
  rows := conv.rows.filter (m.key < ·.key) ++ m :: conv.rows.filter (·.key < m.key)
  clustered := by
    refine List.pairwise_append.mpr ⟨conv.clustered.filter _, List.pairwise_cons.mpr
      ⟨fun a ha => ?_, conv.clustered.filter _⟩, fun a ha b hb => ?_⟩
    · exact of_decide_eq_true (List.mem_filter.mp ha).2
    · have hab : m.key < a.key := of_decide_eq_true (List.mem_filter.mp ha).2
      rcases List.mem_cons.mp hb with rfl | hb
      · exact hab
      · exact Nat.lt_trans (of_decide_eq_true (List.mem_filter.mp hb).2) hab

def Conversation.delete (conv : Conversation) (msg_id : MsgId) : Conversation where
  rows := conv.rows.filter (·.msg_id ≠ msg_id)
  clustered := conv.clustered.filter _

/-- `WHERE conv_id=? AND msg_id < ? LIMIT ?`, with the columns as `bigint`. -/
def Conversation.select_history (conv : Conversation) (before limit : UInt64) : List HistoryRow :=
  ((conv.rows.filter (·.msg_id.toInt64 < before.toInt64)).take limit.toNat).map (·.toHistoryRow)

inductive Change
  | insert (m : Message)
  | delete (msg_id : MsgId)

def Conversation.apply (conv : Conversation) : Change → Conversation
  | .insert m => conv.insert m
  | .delete msg_id => conv.delete msg_id

/-- A conversation, and what happens to it after each request. New messages have newer ids. -/
structure Run where
  initial : Conversation
  changes : Nat → List Change
  newer : ∀ n m, .insert m ∈ changes n → ∀ old ∈ initial.rows, old.key < m.key

/-- The table as the `n`-th request finds it. -/
def Run.store (r : Run) : Nat → Conversation
  | 0 => r.initial
  | n + 1 => (r.changes n).foldl Conversation.apply (r.store n)

/-- Stored before the first request and never deleted. -/
def Run.Survives (r : Run) (m : Message) : Prop :=
  m ∈ r.initial.rows ∧ ∀ n, .delete m.msg_id ∉ r.changes n

/-! ## The server's answer -/

/-- What the requests of a member go through. -/
structure Server where
  services : Services
  base64_encode : Bytes → String
  authorization : String
  user_id : UserId
  verified : require_auth services authorization = some user_id
  conv_id : ConvId
  conv_member : Bool
  group_member : Bool
  member : conv_member = true ∨ group_member = true
  other : ∀ call : Call, call.Answer

def Server.answer (srv : Server) (conv : Conversation) : (call : Call) → call.Answer
  | .is_conv_member _ _ => some srv.conv_member
  | .is_group_member _ _ => some srv.group_member
  | .select_history _ before limit => conv.select_history before limit
  | call => srv.other call

def Server.id (srv : Server) : String := toString srv.conv_id.toNat

/-- The array of a 200 response. -/
def Server.get (srv : Server) (conv : Conversation) (target : String) : Option (List Json) :=
  match (get_messages srv.services srv.base64_encode
      { method := .get, target := target, authorization := srv.authorization }
      [("id", srv.id)]).run (fun _ => srv.answer conv) with
  | some { status := .ok, body := .json (.array items), .. } => some items
  | _ => none

/-! ## The browser -/

structure HistoryState where
  loaded : Bool
  loading : Bool
  loading_more : Bool
  has_more : Bool
  oldest_cursor : Option String

def create_history_state : HistoryState where
  loaded := false
  loading := false
  loading_more := false
  has_more := false
  oldest_cursor := none

inductive Mode
  | replace
  | prepend
  deriving DecidableEq

def PAGE_SIZE : Nat := 50

/-- The path behind the proxy, with the search parameters in the order in which they are set. -/
def request_target (conv_id : String) (before_cursor : Option String) : String :=
  "/conversations/" ++ conv_id ++ "/messages?limit=50" ++
    (match before_cursor with
    | none => ""
    | some before => if before = "" then "" else "&before=" ++ before)

/-- `message.msg_id` of an item. -/
def msg_id : Json → Option String
  | .object members => match members.lookup "msg_id" with
    | some (.string s) => some s
    | _ => none
  | _ => none

/-- The state that a page leaves. -/
def HistoryState.with_page (st : HistoryState) (payload : List Json) : HistoryState where
  loaded := true
  loading := false
  loading_more := false
  has_more := payload.length = PAGE_SIZE
  oldest_cursor := (payload.getLast?.bind msg_id).or st.oldest_cursor

/-- The new state, and the page, or `none` when no request is made or it fails. -/
def load_conversation_history (fetch : String → Option (List Json)) (conv_id : String)
    (mode : Mode) (st : HistoryState) : HistoryState × Option (List Json) :=
  let before_cursor := if mode = .prepend then st.oldest_cursor else none
  if mode = .prepend ∧
      (before_cursor = none ∨ before_cursor = some "" ∨ st.loading_more = true) then
    (st, none)
  else if mode = .replace ∧ st.loading = true then (st, none)
  else match fetch (request_target conv_id before_cursor) with
    | none => ({ st with loading := false, loading_more := false }, none)
    | some payload => (st.with_page payload, some payload)

/-- The loads from the `n`-th request on, while `has_more` is true. `none` when the fuel runs out
or a load gives no page. -/
def read_pages (fetch : Nat → String → Option (List Json)) (conv_id : String) :
    Nat → Nat → Mode → HistoryState → Option (List (List Json))
  | 0, _, _, _ => none
  | fuel + 1, n, mode, st =>
    match load_conversation_history (fetch n) conv_id mode st with
    | (_, none) => none
    | (st', some payload) =>
      if st'.has_more then
        (read_pages fetch conv_id fuel (n + 1) .prepend st').map (payload :: ·)
      else some [payload]

/-- The pages of a whole reading. -/
def Reads (srv : Server) (r : Run) (st : HistoryState) (pages : List (List Json)) : Prop :=
  ∃ fuel, read_pages (fun n => srv.get (r.store n)) srv.id fuel 0 .replace st = some pages

/-- The id of an item, as a number. -/
def number_of (item : Json) : Nat := (((msg_id item).bind from_chars).getD 0).toNat

/-- The reading ends, each message that survives is in exactly one page, and the ids go down. -/
def Complete (srv : Server) (r : Run) (st : HistoryState) : Prop :=
  (∃ pages, Reads srv r st pages) ∧ ∀ pages, Reads srv r st pages →
    paging.Descending number_of pages.flatten ∧
    ∀ m, r.Survives m → paging.InOnePage (history_json srv.base64_encode m.toHistoryRow) pages

/-! ## The search parameters -/

/-- The pairs of a target with a limit, and of one with a cursor after it. -/
theorem query_pairs_limit {target : String} {path : List Char} (limit : List Char)
    (htarget : target.toList = path ++ '?' :: ("limit".toList ++ '=' :: limit))
    (hpath : '?' ∉ path) (hlimit : '&' ∉ limit) :
    query_pairs target = [("limit", String.ofList limit)] := by
  rw [query_pairs_one htarget hpath (by decide) (by simp [hlimit]), String.ofList_toList]

theorem query_pairs_limit_before {target : String} {path before : List Char} (limit : List Char)
    (htarget : target.toList = path ++ '?' :: ("limit".toList ++ '=' :: limit ++
      '&' :: ("before".toList ++ '=' :: before)))
    (hpath : '?' ∉ path) (hlimit : '&' ∉ limit) (hbefore : '&' ∉ before) :
    query_pairs target =
      [("limit", String.ofList limit), ("before", String.ofList before)] := by
  rw [query_pairs_two htarget hpath (by decide) (by decide) (by simp [hlimit])
    (by simp [hbefore]), String.ofList_toList, String.ofList_toList]

/-- The path of a conversation. -/
theorem path_no_query (id : Nat) :
    '?' ∉ "/conversations/".toList ++ (toString id).toList ++ "/messages".toList := by
  simp only [List.mem_append, not_or]
  exact ⟨⟨by decide, not_mem_toString (by decide) id⟩, by decide⟩

theorem query_pairs_first (id : Nat) :
    query_pairs (request_target (toString id) none) = [("limit", "50")] := by
  refine query_pairs_limit "50".toList ?_ (path_no_query id) (by decide)
  unfold request_target
  simp [String.toList_append]

theorem query_pairs_before (id before : Nat) :
    query_pairs (request_target (toString id) (some (toString before))) =
      [("limit", "50"), ("before", toString before)] := by
  rw [← String.ofList_toList (s := toString before)]
  refine query_pairs_limit_before "50".toList ?_ (path_no_query id) (by decide)
    (not_mem_toString (by decide) before)
  unfold request_target
  dsimp only
  rw [String.ofList_toList, if_neg (toString_ne_empty before)]
  simp [String.toList_append]

/-! ## One request -/

theorem toInt_toInt64 {x : UInt64} (h : x.toNat < 2 ^ 63) : x.toInt64.toInt = x.toNat :=
  BitVec.toInt_eq_toNat_of_lt (by simpa using (show 2 * x.toNat < 2 ^ 64 by omega))

/-- As `bigint`, ids of 63 bits keep their order. -/
theorem toInt64_lt {a b : UInt64} (ha : a.toNat < 2 ^ 63) (hb : b.toNat < 2 ^ 63) :
    a.toInt64 < b.toInt64 ↔ a.toNat < b.toNat := by
  rw [Int64.lt_iff_toInt_lt, toInt_toInt64 ha, toInt_toInt64 hb]
  omega

theorem select_history_eq (conv : Conversation) {before : UInt64} (limit : UInt64)
    (h : before.toNat < 2 ^ 63) :
    conv.select_history before limit =
      (paging.page Message.key conv.rows before.toNat limit.toNat).map (·.toHistoryRow) := by
  unfold Conversation.select_history paging.page
  congr 2
  apply List.filter_congr
  intro m _
  exact decide_eq_decide.mpr (toInt64_lt m.bounded h)

section Server

variable {srv : Server} {conv : Conversation}

/-- A page as the browser gets it. -/
def Server.payload (srv : Server) (rows : List Message) : List Json :=
  rows.map fun m => history_json srv.base64_encode m.toHistoryRow

theorem when_member_run {error : String} {k : HttpCoroutine} :
    (when_member srv.conv_id srv.user_id error k).run (fun _ => srv.answer conv) =
      k.run fun _ => srv.answer conv := by
  unfold when_member
  rw [run_await]
  cases hconv : srv.conv_member with
  | true =>
    have hrow : srv.answer conv (.is_conv_member srv.conv_id srv.user_id) = some true :=
      congrArg some hconv
    rw [hrow]
    rfl
  | false =>
    have hrow : srv.answer conv (.is_conv_member srv.conv_id srv.user_id) = some false :=
      congrArg some hconv
    have hgroup : srv.answer conv (.is_group_member srv.conv_id srv.user_id) = some true :=
      congrArg some (srv.member.resolve_left (by rw [hconv]; decide))
    rw [hrow, run_await, tail_constant]
    beta_reduce
    rw [hgroup]
    rfl

/-- A request of a member gives the rows of its parameters. -/
theorem get_rows (target : String) :
    srv.get conv target = some ((conv.select_history
      (((query_param target "before").bind from_chars).getD INT64_MAX)
      (limit_of ((query_param target "limit").getD "") 50 100)).map
        (history_json srv.base64_encode)) := by
  have hlookup : List.lookup "id" [("id", srv.id)] = some srv.id := rfl
  have hid : from_chars srv.id = some srv.conv_id := from_chars_id _
  unfold Server.get get_messages with_user with_conv_id
  rw [srv.verified]
  dsimp only
  rw [hlookup]
  unfold groups_handler.with_number
  dsimp only
  rw [hid]
  dsimp only
  rw [when_member_run, run_await]
  rfl

theorem get_eq (before : UInt64) {target : String}
    (hbefore : ((query_param target "before").bind from_chars).getD INT64_MAX = before)
    (hlimit : query_param target "limit" = some "50") (h : before.toNat < 2 ^ 63) :
    srv.get conv target =
      some (srv.payload (paging.page Message.key conv.rows before.toNat 50)) := by
  have hfifty : limit_of "50" 50 100 = 50 := by decide
  rw [get_rows, hbefore, hlimit, Option.getD_some, hfifty, select_history_eq conv 50 h,
    List.map_map]
  rfl

theorem get_first :
    srv.get conv (request_target srv.id none) =
      some (srv.payload (paging.page Message.key conv.rows (2 ^ 63 - 1) 50)) := by
  have hpairs : query_pairs (request_target srv.id none) = _ := query_pairs_first _
  exact get_eq INT64_MAX (by unfold query_param; rw [hpairs]; rfl)
    (by unfold query_param; rw [hpairs]; rfl) (by decide)

theorem get_before {before : UInt64} (h : before.toNat < 2 ^ 63) :
    srv.get conv (request_target srv.id (some (toString before.toNat))) =
      some (srv.payload (paging.page Message.key conv.rows before.toNat 50)) := by
  have hpairs : query_pairs (request_target srv.id (some (toString before.toNat))) = _ :=
    query_pairs_before _ _
  have hparam : query_param (request_target srv.id (some (toString before.toNat))) "before" =
      some (toString before.toNat) := by
    unfold query_param
    rw [hpairs]
    rfl
  apply get_eq
  · rw [hparam, Option.bind_some, from_chars_id, Option.getD_some]
  · unfold query_param
    rw [hpairs]
    rfl
  · exact h

end Server

/-! ## The reading -/

section Reading

variable {srv : Server} {r : Run}

theorem msg_id_history_json (base64_encode : Bytes → String) (row : HistoryRow) :
    msg_id (history_json base64_encode row) = some (toString row.msg_id.toNat) := rfl

theorem number_of_history_json (base64_encode : Bytes → String) (row : HistoryRow) :
    number_of (history_json base64_encode row) = row.msg_id.toNat := by
  unfold number_of
  rw [msg_id_history_json, Option.bind_some, from_chars_id, Option.getD_some]

/-- Once a page has come, the reading goes on as the pages of the table do. -/
theorem read_pages_step {fuel n before : Nat} {mode : Mode} {st : HistoryState}
    (hload : load_conversation_history (srv.get (r.store n)) srv.id mode st =
      (st.with_page (srv.payload (paging.page Message.key (r.store n).rows before 50)),
        some (srv.payload (paging.page Message.key (r.store n).rows before 50))))
    (hrest : ∀ last : Message, ∀ st' : HistoryState,
      st'.oldest_cursor = some (toString last.msg_id.toNat) → st'.loading_more = false →
      read_pages (fun n => srv.get (r.store n)) srv.id fuel (n + 1) .prepend st' =
        (paging.pages Message.key (fun n => (r.store n).rows) 50 fuel (n + 1) last.key).map
          (List.map srv.payload)) :
    read_pages (fun n => srv.get (r.store n)) srv.id (fuel + 1) n mode st =
      (paging.pages Message.key (fun n => (r.store n).rows) 50 (fuel + 1) n before).map
        (List.map srv.payload) := by
  unfold read_pages paging.pages
  dsimp only
  rw [hload]
  generalize paging.page Message.key (r.store n).rows before 50 = p
  dsimp only
  by_cases hfull : p.length = 50
  · have hmore : (st.with_page (srv.payload p)).has_more = true :=
      decide_eq_true ((List.length_map _).trans hfull)
    rw [if_pos hfull, if_pos hmore]
    cases hlast : p.getLast? with
    | none =>
      rw [List.getLast?_eq_none_iff.mp hlast] at hfull
      cases hfull
    | some last =>
      have hcursor : (st.with_page (srv.payload p)).oldest_cursor =
          some (toString last.msg_id.toNat) := by
        unfold HistoryState.with_page Server.payload
        rw [List.getLast?_map, hlast]
        rfl
      rw [hrest last _ hcursor rfl, Option.map_map, Option.map_map]
      rfl
  · have hmore : ¬ (st.with_page (srv.payload p)).has_more = true :=
      fun h => hfull ((List.length_map _).symm.trans (of_decide_eq_true h))
    rw [if_neg hfull, if_neg hmore]
    rfl

theorem load_prepend {conv : Conversation} {st : HistoryState} {last : Message}
    (hcursor : st.oldest_cursor = some (toString last.msg_id.toNat))
    (hidle : st.loading_more = false) :
    load_conversation_history (srv.get conv) srv.id .prepend st =
      (st.with_page (srv.payload (paging.page Message.key conv.rows last.key 50)),
        some (srv.payload (paging.page Message.key conv.rows last.key 50))) := by
  have hget : srv.get conv (request_target srv.id (some (toString last.msg_id.toNat))) =
      some (srv.payload (paging.page Message.key conv.rows last.key 50)) :=
    get_before last.bounded
  unfold load_conversation_history
  dsimp only
  rw [if_pos rfl, hcursor, hidle, if_neg (by simp), if_neg (by simp), hget]

theorem load_replace {conv : Conversation} {st : HistoryState} (hidle : st.loading = false) :
    load_conversation_history (srv.get conv) srv.id .replace st =
      (st.with_page (srv.payload (paging.page Message.key conv.rows (2 ^ 63 - 1) 50)),
        some (srv.payload (paging.page Message.key conv.rows (2 ^ 63 - 1) 50))) := by
  unfold load_conversation_history
  dsimp only
  rw [if_neg (fun h => Mode.noConfusion h.1), hidle, if_neg (fun h => Bool.noConfusion h.2),
    if_neg (fun h => Mode.noConfusion h), get_first]

theorem read_pages_prepend (fuel n : Nat) (last : Message) (st : HistoryState)
    (hcursor : st.oldest_cursor = some (toString last.msg_id.toNat))
    (hidle : st.loading_more = false) :
    read_pages (fun n => srv.get (r.store n)) srv.id fuel n .prepend st =
      (paging.pages Message.key (fun n => (r.store n).rows) 50 fuel n last.key).map
        (List.map srv.payload) := by
  induction fuel generalizing n last st with
  | zero => rfl
  | succ fuel ih =>
    exact read_pages_step (load_prepend hcursor hidle) fun last' st' => ih (n + 1) last' st'

/-- The browser reads the pages of the table under the largest number of 63 bits. -/
theorem read_pages_eq (fuel : Nat) {st : HistoryState} (hidle : st.loading = false) :
    read_pages (fun n => srv.get (r.store n)) srv.id fuel 0 .replace st =
      (paging.pages Message.key (fun n => (r.store n).rows) 50 fuel 0 (2 ^ 63 - 1)).map
        (List.map srv.payload) := by
  cases fuel with
  | zero => rfl
  | succ fuel =>
    exact read_pages_step (load_replace hidle) fun last st' => read_pages_prepend fuel 1 last st'

/-- What survives is found by every request. -/
theorem mem_store {m : Message} (h : r.Survives m) (n : Nat) : m ∈ (r.store n).rows := by
  obtain ⟨hinitial, hkept⟩ := h
  induction n with
  | zero => exact hinitial
  | succ n ih =>
    have happly : ∀ changes : List Change, (∀ change ∈ changes, change ∈ r.changes n) →
        ∀ conv : Conversation, m ∈ conv.rows →
          m ∈ (changes.foldl Conversation.apply conv).rows := by
      intro changes
      induction changes with
      | nil => exact fun _ conv hmem => hmem
      | cons change changes ihc =>
        intro hsub conv hmem
        refine ihc (fun c hc => hsub c (List.mem_cons_of_mem _ hc)) _ ?_
        have hchange := hsub change List.mem_cons_self
        cases change with
        | insert new =>
          have hlt : m.key < new.key := r.newer n new hchange m hinitial
          exact List.mem_append_right _ (List.mem_cons_of_mem _
            (List.mem_filter.mpr ⟨hmem, decide_eq_true hlt⟩))
        | delete msg_id =>
          refine List.mem_filter.mpr ⟨hmem, decide_eq_true ?_⟩
          rintro rfl
          exact hkept n hchange
    exact happly (r.changes n) (fun _ h => h) _ ih

theorem flatten_payloads (ps : List (List Message)) :
    (ps.map srv.payload).flatten = srv.payload ps.flatten := by
  unfold Server.payload
  rw [List.map_flatten]

theorem descending_payloads {ps : List (List Message)}
    (h : paging.Descending Message.key ps.flatten) :
    paging.Descending number_of (ps.map srv.payload).flatten := by
  rw [flatten_payloads]
  apply List.pairwise_map.mpr
  apply h.imp
  intro a b hab
  rw [number_of_history_json, number_of_history_json]
  exact hab

/-- Reading works from every idle state exactly when no message that survives has the largest id
of 63 bits. -/
theorem the_reading_is_complete_iff_no_id_is_the_largest (st : HistoryState)
    (hidle : st.loading = false) :
    Complete srv r st ↔ ∀ m, r.Survives m → m.msg_id.toNat ≠ 2 ^ 63 - 1 := by
  have hdesc : ∀ n, paging.Descending Message.key (r.store n).rows := fun n =>
    (r.store n).clustered
  constructor
  · rintro ⟨⟨pages, fuel, hread⟩, hall⟩ m hm heq
    have hpage := ((hall pages ⟨fuel, hread⟩).2 m hm).mem_flatten
    rw [read_pages_eq fuel hidle] at hread
    obtain ⟨ps, hps, rfl⟩ := Option.map_eq_some_iff.mp hread
    rw [flatten_payloads] at hpage
    obtain ⟨m', hm', hsame⟩ := List.mem_map.mp hpage
    have hkey : m'.key = m.key := by
      have hnumber := congrArg number_of hsame
      rwa [number_of_history_json, number_of_history_json] at hnumber
    have hunder : m'.key < 2 ^ 63 - 1 := paging.pages_under (by decide) hps m' hm'
    exact absurd (hkey.trans heq) (Nat.ne_of_lt hunder)
  · intro hnone
    constructor
    · obtain ⟨fuel, ps, hps⟩ : ∃ fuel ps, paging.pages Message.key (fun n => (r.store n).rows) 50
          fuel 0 (2 ^ 63 - 1) = some ps := paging.pages_end _ _
      exact ⟨_, fuel, by rw [read_pages_eq fuel hidle, hps]; rfl⟩
    · rintro pages ⟨fuel, hread⟩
      rw [read_pages_eq fuel hidle] at hread
      obtain ⟨ps, hps, rfl⟩ := Option.map_eq_some_iff.mp hread
      have hdown : paging.Descending number_of (ps.map srv.payload).flatten :=
        descending_payloads (paging.descending_pages (by decide) hdesc hps)
      refine ⟨hdown, fun m hm => paging.in_one_page hdown ?_⟩
      have hlt : m.key < 2 ^ 63 - 1 := by
        have hne : m.key ≠ 2 ^ 63 - 1 := hnone m hm
        have hbound : m.key < 2 ^ 63 := m.bounded
        omega
      have hmem := paging.mem_pages (by decide) hdesc (mem_store hm) hlt hps
      rw [flatten_payloads]
      exact List.mem_map_of_mem hmem

end Reading

/-! ## Two short conversations -/

section Examples

/-- Member 5 of the conversation 100. -/
def member_five : Server where
  services :=
    { verify := fun token => if token = "five" then some 5 else none
      issue := fun _ => ""
      parse := fun _ => none }
  base64_encode _ := ""
  authorization := "Bearer five"
  user_id := 5
  verified := by decide
  conv_id := 100
  conv_member := true
  group_member := false
  member := .inl rfl
  other := http_answers.failing 0

def text_message (id : MsgId) (positive : 0 < id.toNat) (bounded : id.toNat < 2 ^ 63) :
    Message where
  msg_id := id
  sender_id := 5
  recipient_id := 7
  content := []
  msg_type := 1
  ts_ms := 0
  positive := positive
  bounded := bounded

def first_message : Message := text_message 1 (by decide) (by decide)

def second_message : Message := text_message 2 (by decide) (by decide)

def largest_message : Message := text_message INT64_MAX (by decide) (by decide)

/-- The second message comes after the first request. -/
def short_run : Run where
  initial := ⟨[first_message], List.pairwise_singleton _ _⟩
  changes n := if n = 0 then [.insert second_message] else []
  newer n m hm old hold := by
    obtain rfl := List.mem_singleton.mp hold
    split at hm
    · cases List.mem_singleton.mp hm
      decide
    · cases hm

theorem a_short_conversation_is_read : Complete member_five short_run create_history_state :=
  (the_reading_is_complete_iff_no_id_is_the_largest create_history_state rfl).mpr
    fun m hm => by
      obtain rfl := List.mem_singleton.mp hm.1
      decide

def largest_run : Run where
  initial := ⟨[largest_message], List.pairwise_singleton _ _⟩
  changes _ := []
  newer _ _ hm := absurd hm List.not_mem_nil

/-- The request without a cursor asks for the ids under the largest one. -/
theorem the_largest_id_is_not_read :
    ¬ Complete member_five largest_run create_history_state := by
  rintro ⟨_, hall⟩
  have hread : Reads member_five largest_run create_history_state [[]] :=
    ⟨1, by rw [read_pages_eq 1 rfl]; rfl⟩
  have hpage := ((hall _ hread).2 largest_message
    ⟨List.mem_singleton.mpr rfl, fun _ => List.not_mem_nil⟩).mem_flatten
  cases hpage

end Examples

end loomic.history
