-- A browser that sends direct messages over a WebSocket (handleSend), and the "delivered"
-- events that tell it their ids: an event names no entry, so the browser gives the id to
-- the first entry that waits for one (updateMessageReceiptStatus).
import Loomic.MessageList
import Loomic.Routing

open loomic.frame loomic.json loomic.message_list loomic.routing machines
open loomic.database (Stores)

namespace loomic.receipt_guesses

/-! ## The browser and the server -/

/-- The direct conversation, the user and the peer. -/
structure Chat where
  conv_id : ConvId
  self_user_id : UserId
  peer_id : UserId
  locale_compare : String → String → Int

/-- What the server sends to the browser: a receipt, or a message of another client with its
text. -/
inductive ServerEvent
  | delivered (msg_id : MsgId)
  | chat (m : OutboundMessage) (content : String)

/-- The list and the settle timers of the browser, the frames that the server has not read, the
messages that it has stored, and the events under way. -/
structure State where
  messages : List ConversationMessage
  timers : List String
  frames : List String
  stored : List OutboundMessage
  events : List ServerEvent

/-- The answers to one frame. -/
structure Answered where
  st : Stores
  env : Env st

inductive Label
  | send (composer_value drawn : String) (now : Int)
  | settle (n : Nat)
  | serve (answered : Answered)
  | elsewhere (m : OutboundMessage) (content : String)
  | receive (n : Nat)
  | history (page : List (OutboundMessage × String))
  | read (read_at_ms : Int)
  | delete_notify (msg_id : MsgId)

/-- The white space and the line ends of JavaScript. -/
def is_space (c : Char) : Bool :=
  c.toNat ∈ [0x09, 0x0A, 0x0B, 0x0C, 0x0D, 0x20, 0xA0, 0x1680, 0x2028, 0x2029, 0x202F, 0x205F,
    0x3000, 0xFEFF] || (0x2000 ≤ c.toNat && c.toNat ≤ 0x200A)

def trim (s : String) : String :=
  String.ofList ((s.toList.dropWhile is_space).reverse.dropWhile is_space).reverse

/-- The frame of a text, as the server parses it. -/
def chat_frame (conv_id : ConvId) (content : String) : Json :=
  .object [("content", .string content), ("conv_id", .string (id_text conv_id)),
    ("type", .string "chat")]

def stored_by : RouteEffect → Option OutboundMessage
  | .store_message m => some m
  | _ => none

def event_of : RouteEffect → Option ServerEvent
  | .push_receipt receipt => some (.delivered receipt.msg_id)
  | _ => none

/-- The id is newer than all before. -/
def Newer (stored : List OutboundMessage) (msg_id : MsgId) : Prop :=
  ∀ m ∈ stored, m.msg_id.toNat < msg_id.toNat

instance (stored : List OutboundMessage) (msg_id : MsgId) : Decidable (Newer stored msg_id) :=
  inferInstanceAs (Decidable (∀ m ∈ stored, _))

section Chat

variable (chat : Chat)

def Chat.merge (s : State) (incoming : List ConversationMessage) : State :=
  { s with messages := merge_conversation_messages chat.locale_compare s.messages incoming }

/-- A message that comes with a "chat" event. -/
def Chat.next_message (m : OutboundMessage) (content : String) : ConversationMessage :=
  let is_outgoing : Bool := m.sender_id = chat.self_user_id
  { id := id_text m.msg_id
    conv_id := id_text chat.conv_id
    sender_id := id_text m.sender_id
    recipient_id := id_text chat.conv_id
    content := content
    timestamp_ms := m.timestamp_ms.toInt
    direction := if is_outgoing then .outgoing else .incoming
    receipt_status := if is_outgoing then some .sent else none }

/-- A row of the history. -/
def Chat.normalize_history_message (m : OutboundMessage) (content : String) :
    ConversationMessage :=
  { chat.next_message m content with recipient_id := id_text m.recipient_id }

/-- Nothing is sent without a text. -/
def Chat.handle_send (s : State) (composer_value drawn : String) (now : Int) : State :=
  let content := trim composer_value
  let message := build_optimistic_message (id_text chat.conv_id) (id_text chat.self_user_id)
    (id_text chat.peer_id) content drawn now
  if content = "" then s
  else { chat.merge s [message] with
    frames := s.frames ++ [content]
    timers := s.timers ++ [message.id] }

/-- The server reads the next frame. The new message has a newer id. -/
def Chat.serve (s : State) (a : Answered) : Option State :=
  match s.frames with
  | [] => none
  | content :: frames =>
    if Newer s.stored a.env.msg_id then
      let es := (WebSocketSession.route_message a.env chat.self_user_id
        (chat_frame chat.conv_id content)).getD []
      some { s with
        frames := frames
        stored := s.stored ++ es.filterMap stored_by
        events := s.events ++ es.filterMap event_of }
    else none

def Chat.handle_socket_payload (s : State) : ServerEvent → State
  | .delivered msg_id =>
    { s with messages := update_message_receipt_status s.messages (id_text msg_id) .delivered }
  | .chat m content => chat.merge s [chat.next_message m content]

/-- The rows of the page were stored, and the texts are theirs. -/
def FromStore (stored : List OutboundMessage) (page : List (OutboundMessage × String)) : Prop :=
  ∀ row ∈ page, row.1 ∈ stored ∧ row.1.content = bytes row.2

instance (stored : List OutboundMessage) (page : List (OutboundMessage × String)) :
    Decidable (FromStore stored page) :=
  inferInstanceAs (Decidable (∀ row ∈ page, _))

/-- A timer may fire and an event may arrive at any time, in any order. -/
def Chat.step (s : State) : Label → Option State
  | .send composer_value drawn now => some (chat.handle_send s composer_value drawn now)
  | .settle n => (s.timers[n]?).map fun id =>
    { s with
      timers := s.timers.eraseIdx n
      messages := settle_optimistic_message s.messages id }
  | .serve answered => chat.serve s answered
  | .elsewhere m content =>
    if Newer s.stored m.msg_id ∧ m.content = bytes content then
      some { s with
        stored := s.stored ++ [m]
        events := if m.sender_id = chat.self_user_id then s.events
          else s.events ++ [.chat m content] }
    else none
  | .receive n => (s.events[n]?).map fun event =>
    chat.handle_socket_payload { s with events := s.events.eraseIdx n } event
  | .history page =>
    if FromStore s.stored page then
      some (chat.merge s (page.map fun row => chat.normalize_history_message row.1 row.2))
    else none
  | .read read_at_ms =>
    some { s with messages := mark_conversation_messages_read s.messages read_at_ms }
  | .delete_notify msg_id =>
    some { s with messages := remove_message s.messages (id_text msg_id) }

def Chat.machine : Machine State Label where
  start := ⟨[], [], [], [], []⟩
  step := chat.step

end Chat

/-! ## The law -/

/-- An entry with the id of a stored message has its content. -/
def Attributed (s : State) : Prop :=
  ∀ entry ∈ s.messages, ∀ m ∈ s.stored, entry.id = id_text m.msg_id →
    bytes entry.content = m.content

/-- An entry has the id, or the first one that waits for an id has the content stored under it,
or none waits. -/
def Guesses (s : State) (msg_id : MsgId) : Prop :=
  s.messages.any (·.id = id_text msg_id) = true ∨
    ∀ guess ∈ s.messages.find? awaits_id, ∀ m ∈ s.stored, m.msg_id ≠ msg_id ∨
      bytes guess.content = m.content

instance (s : State) (msg_id : MsgId) : Decidable (Guesses s msg_id) :=
  inferInstanceAs (Decidable (_ ∨ ∀ guess ∈ _, ∀ m ∈ s.stored, _))

instance decidable_guesses (s : State) : ∀ o : Option MsgId, Decidable (o.elim True (Guesses s))
  | none => isTrue trivial
  | some msg_id => inferInstanceAs (Decidable (Guesses s msg_id))

/-- The message whose "delivered" event a step receives. -/
def received (s : State) : Label → Option MsgId
  | .receive n => match s.events[n]? with
    | some (.delivered msg_id) => some msg_id
    | _ => none
  | _ => none

/-- When an event arrives, the guess is right. -/
def GuessesRight (s : State) (a : Label) : Prop := (received s a).elim True (Guesses s)

instance (s : State) (a : Label) : Decidable (GuessesRight s a) := decidable_guesses s _

/-! ## The ids -/

theorem id_text_inj {a b : UInt64} : id_text a = id_text b ↔ a = b := by
  constructor
  · intro h
    have hnumber := congrArg from_chars h
    unfold id_text at hnumber
    rw [from_chars_id, from_chars_id, Option.some.injEq] at hnumber
    exact hnumber
  · rintro rfl
    rfl

/-- An id of the server is not a temporary one. -/
theorem not_optimistic_of_id {entry : ConversationMessage} {id : UInt64}
    (h : entry.id = id_text id) : is_optimistic_message entry = false := by
  apply Bool.eq_false_iff.mpr
  intro htemp
  unfold is_optimistic_message at htemp
  rw [h, List.isPrefixOf_iff_prefix] at htemp
  exact not_mem_toString (by decide) _ (htemp.subset (show 't' ∈ _ by decide))

/-! ## The entries and the stored messages -/

/-- The entry has a temporary id, or the id and the content of a stored message. -/
structure Right (stored : List OutboundMessage) (entry : ConversationMessage) : Prop where
  content : ∀ m ∈ stored, entry.id = id_text m.msg_id → bytes entry.content = m.content
  id : is_optimistic_message entry = true ∨ ∃ m ∈ stored, entry.id = id_text m.msg_id

/-- What an event is about was stored. -/
def Known (stored : List OutboundMessage) : ServerEvent → Prop
  | .delivered msg_id => ∃ m ∈ stored, m.msg_id = msg_id
  | .chat m content => m ∈ stored ∧ m.content = bytes content

structure Tracked (s : State) : Prop where
  entries : ∀ entry ∈ s.messages, Right s.stored entry
  events : ∀ event ∈ s.events, Known s.stored event
  unique : (s.stored.map (·.msg_id)).Nodup

section Right

variable {stored : List OutboundMessage} {m m' : OutboundMessage}
  {entry : ConversationMessage} {l : List ConversationMessage}

theorem right_of_shows (hl : ∀ e ∈ l, Right stored e) (h : Shows l entry) :
    Right stored entry := by
  obtain ⟨e, he, hid, hcontent⟩ := h
  obtain ⟨hsame, hwhich⟩ := hl e he
  refine ⟨fun m hm heq => ?_, ?_⟩
  · rw [← hcontent]
    exact hsame m hm (hid.trans heq)
  · unfold is_optimistic_message at *
    rwa [← hid]

theorem right_of_stored (hunique : (stored.map (·.msg_id)).Nodup) (hm : m ∈ stored)
    (hid : entry.id = id_text m.msg_id) (hcontent : bytes entry.content = m.content) :
    Right stored entry := by
  refine ⟨fun m' hm' heq => ?_, .inr ⟨m, hm, hid⟩⟩
  have hsame : m.msg_id = m'.msg_id := id_text_inj.mp (hid.symm.trans heq)
  obtain rfl := List.inj_on_of_nodup_map hunique hm hm' hsame
  exact hcontent

/-- No entry has the id of a new message yet. -/
theorem Right.store (h : Right stored entry) (hnew : Newer stored m.msg_id) :
    Right (stored ++ [m]) entry where
  content := by
    intro m' hm' heq
    rcases List.mem_append.mp hm' with hm' | hm'
    · exact h.content m' hm' heq
    · obtain rfl := List.mem_singleton.mp hm'
      rcases h.id with htemp | ⟨old, hold, hid⟩
      · rw [not_optimistic_of_id heq] at htemp
        cases htemp
      · have hsame : old.msg_id = m'.msg_id := id_text_inj.mp (hid.symm.trans heq)
        exact absurd (hnew old hold) (by rw [hsame]; exact Nat.lt_irrefl _)
  id := by
    rcases h.id with htemp | ⟨old, hold, hid⟩
    · exact .inl htemp
    · exact .inr ⟨old, List.mem_append_left _ hold, hid⟩

theorem Known.store {event : ServerEvent} (h : Known stored event) :
    Known (stored ++ [m]) event := by
  cases event with
  | delivered msg_id =>
    obtain ⟨old, hold, hid⟩ := h
    exact ⟨old, List.mem_append_left _ hold, hid⟩
  | chat m' content => exact ⟨List.mem_append_left _ h.1, h.2⟩

theorem nodup_store (h : (stored.map (·.msg_id)).Nodup) (hnew : Newer stored m.msg_id) :
    ((stored ++ [m]).map (·.msg_id)).Nodup := by
  rw [List.map_append, List.map_singleton, ← List.concat_eq_append]
  apply List.Nodup.concat _ h
  intro hmem
  obtain ⟨old, hold, hid⟩ := List.mem_map.mp hmem
  exact absurd (hnew old hold) (by rw [hid]; exact Nat.lt_irrefl _)

end Right

/-! ## The steps -/

section Step

variable {chat : Chat} {s s' : State} {a : Label}

/-- A list of which every entry was shown. -/
theorem Tracked.show (h : Tracked s) {messages : List ConversationMessage}
    (hshows : ∀ entry ∈ messages, Shows s.messages entry) :
    Tracked { s with messages := messages } where
  entries := fun entry hentry => right_of_shows h.entries (hshows entry hentry)
  events := h.events
  unique := h.unique

theorem Tracked.merge (h : Tracked s) (chat : Chat) {incoming : List ConversationMessage}
    (hright : ∀ entry ∈ incoming, Right s.stored entry) : Tracked (chat.merge s incoming) where
  entries := by
    intro entry hentry
    refine right_of_shows ?_ (shows_merge _ hentry)
    intro e he
    rcases List.mem_append.mp he with he | he
    · exact h.entries e he
    · exact hright e he
  events := h.events
  unique := h.unique

/-- A newer message is stored, and events about it or about older ones are sent. -/
theorem Tracked.store (h : Tracked s) {m : OutboundMessage} {frames : List String}
    {events : List ServerEvent} (hnew : Newer s.stored m.msg_id)
    (hevents : ∀ event ∈ events, event ∈ s.events ∨ Known (s.stored ++ [m]) event) :
    Tracked { s with frames := frames, stored := s.stored ++ [m], events := events } where
  entries := fun entry hentry => (h.entries entry hentry).store hnew
  events := by
    intro event hevent
    rcases hevents event hevent with hold | hknown
    · exact (h.events event hold).store
    · exact hknown
  unique := nodup_store h.unique hnew

theorem tracked_handle_send (h : Tracked s) (composer_value drawn : String) (now : Int) :
    Tracked (chat.handle_send s composer_value drawn now) := by
  unfold Chat.handle_send
  dsimp only
  split
  · exact h
  · refine ⟨(h.merge chat ?_).entries, h.events, h.unique⟩
    intro entry hentry
    obtain rfl := List.mem_singleton.mp hentry
    have htemp : is_optimistic_message (build_optimistic_message (id_text chat.conv_id)
        (id_text chat.self_user_id) (id_text chat.peer_id) (trim composer_value) drawn now) =
        true := by
      unfold is_optimistic_message build_optimistic_message
      rw [String.toList_append, List.isPrefixOf_iff_prefix]
      exact List.prefix_append _ _
    refine ⟨fun m _ heq => ?_, .inl htemp⟩
    rw [not_optimistic_of_id heq] at htemp
    cases htemp

/-- The routing of a frame stores at most one message, under the next id, and a receipt is for
this one. -/
theorem route_effects {st : Stores} (env : Env st) (user_id : UserId) (j : Json) :
    let es := (WebSocketSession.route_message env user_id j).getD []
    es.filterMap stored_by = [] ∧ es.filterMap event_of = [] ∨
      ∃ m : OutboundMessage, m.msg_id = env.msg_id ∧ es.filterMap stored_by = [m] ∧
        ∀ event ∈ es.filterMap event_of, event = .delivered m.msg_id := by
  unfold WebSocketSession.route_message
  rcases WebSocketSession.request "conv_id" j with _ | _ | ⟨conv_id, content⟩
  · exact .inl ⟨rfl, rfl⟩
  · exact .inl ⟨rfl, rfl⟩
  · simp only [Option.map_some, Option.getD_some]
    cases env.other_member conv_id user_id with
    | none => exact .inl ⟨rfl, rfl⟩
    | some recipient_id =>
      refine .inr ⟨direct_message user_id recipient_id conv_id env.msg_id env.ts_ms
        (bytes content), rfl, ?_⟩
      dsimp only
      split
      · refine ⟨rfl, fun event hevent => ?_⟩
        exact List.mem_singleton.mp hevent
      · exact ⟨rfl, fun event hevent => absurd hevent List.not_mem_nil⟩

theorem tracked_serve (h : Tracked s) {answered : Answered}
    (hs : chat.serve s answered = some s') : Tracked s' := by
  unfold Chat.serve at hs
  split at hs
  · cases hs
  · rename_i content frames _
    obtain ⟨hnew, hs⟩ := Option.ite_none_right_eq_some.mp hs
    obtain rfl := Option.some.inj hs
    rcases route_effects answered.env chat.self_user_id (chat_frame chat.conv_id content) with
      ⟨hnone, hno⟩ | ⟨m, hid, hone, hevents⟩
    · rw [hnone, hno, List.append_nil, List.append_nil]
      exact ⟨h.entries, h.events, h.unique⟩
    · rw [hone]
      apply h.store (hid ▸ hnew)
      intro event hevent
      rcases List.mem_append.mp hevent with hevent | hevent
      · exact .inl hevent
      · obtain rfl := hevents event hevent
        exact .inr ⟨m, List.mem_append_right _ (List.mem_singleton.mpr rfl), rfl⟩

/-- An event about a known message, for which the guess is right. -/
theorem tracked_handle_socket_payload (h : Tracked s) {event : ServerEvent}
    (hknown : Known s.stored event)
    (hok : ∀ msg_id, event = .delivered msg_id → Guesses s msg_id) :
    Tracked (chat.handle_socket_payload s event) := by
  cases event with
  | delivered msg_id =>
    refine ⟨fun entry hentry => ?_, h.events, h.unique⟩
    rcases mem_update_receipt hentry with hshows | ⟨hnone, guess, hguess, hid, hcontent⟩
    · exact right_of_shows h.entries hshows
    · obtain ⟨m, hm, rfl⟩ := hknown
      rcases hok _ rfl with hany | hright
      · rw [hnone] at hany
        cases hany
      · rcases hright guess hguess m hm with hne | hsame
        · exact absurd rfl hne
        · exact right_of_stored h.unique hm hid (by rw [hcontent, hsame])
  | chat m content =>
    apply h.merge chat
    intro entry hentry
    obtain rfl := List.mem_singleton.mp hentry
    exact right_of_stored h.unique hknown.1 rfl hknown.2.symm

/-- A message of another client comes to the browser, unless the user has sent it himself. -/
theorem tracked_elsewhere (h : Tracked s) {m : OutboundMessage} {content : String}
    (hs : chat.step s (.elsewhere m content) = some s') : Tracked s' := by
  obtain ⟨⟨hnew, hcontent⟩, hs⟩ := Option.ite_none_right_eq_some.mp hs
  obtain rfl := Option.some.inj hs
  apply h.store hnew
  intro event hevent
  split at hevent
  · exact .inl hevent
  · rcases List.mem_append.mp hevent with hevent | hevent
    · exact .inl hevent
    · obtain rfl := List.mem_singleton.mp hevent
      exact .inr ⟨List.mem_append_right _ (List.mem_singleton.mpr rfl), hcontent⟩

theorem tracked_history (h : Tracked s) {page : List (OutboundMessage × String)}
    (hs : chat.step s (.history page) = some s') : Tracked s' := by
  obtain ⟨hfrom, hs⟩ := Option.ite_none_right_eq_some.mp hs
  obtain rfl := Option.some.inj hs
  apply h.merge chat
  intro entry hentry
  obtain ⟨row, hrow, rfl⟩ := List.mem_map.mp hentry
  obtain ⟨hstored, hcontent⟩ := hfrom row hrow
  exact right_of_stored h.unique hstored rfl hcontent.symm

theorem tracked_step (h : Tracked s) (hok : GuessesRight s a)
    (hs : chat.machine.step s a = some s') : Tracked s' := by
  cases a with
  | send composer_value drawn now =>
    obtain rfl := Option.some.inj hs
    exact tracked_handle_send h composer_value drawn now
  | settle n =>
    obtain ⟨id, _, rfl⟩ := Option.map_eq_some_iff.mp hs
    have hshow := h.show fun _ hentry => shows_settle id hentry
    exact ⟨hshow.entries, h.events, h.unique⟩
  | serve answered => exact tracked_serve h hs
  | elsewhere m content => exact tracked_elsewhere h hs
  | receive n =>
    obtain ⟨event, hevent, rfl⟩ := Option.map_eq_some_iff.mp hs
    have hrest : Tracked { s with events := s.events.eraseIdx n } :=
      ⟨h.entries, fun e he => h.events e (List.mem_of_mem_eraseIdx he), h.unique⟩
    apply tracked_handle_socket_payload hrest (h.events event (List.mem_of_getElem? hevent))
    rintro msg_id rfl
    unfold GuessesRight received at hok
    dsimp only at hok
    rw [hevent] at hok
    exact hok
  | history page => exact tracked_history h hs
  | read read_at_ms =>
    obtain rfl := Option.some.inj hs
    exact h.show fun _ hentry => shows_mark_read hentry
  | delete_notify msg_id =>
    obtain rfl := Option.some.inj hs
    exact h.show fun _ hentry => shows_remove hentry

/-- Where the guess is wrong, the content of another message gets the id. -/
theorem guessesRight_of_attributed (h : Attributed s')
    (hs : chat.machine.step s a = some s') : GuessesRight s a := by
  unfold GuessesRight
  cases hreceived : received s a with
  | none => trivial
  | some msg_id =>
    cases a with
    | receive n =>
      obtain ⟨event, hevent, rfl⟩ := Option.map_eq_some_iff.mp hs
      unfold received at hreceived
      dsimp only at hreceived
      rw [hevent] at hreceived
      cases event with
      | chat m content => cases hreceived
      | delivered id =>
        obtain rfl := Option.some.inj hreceived
        by_cases hany : s.messages.any (·.id = id_text id) = true
        · exact .inl hany
        · refine .inr fun guess hguess m hm => ?_
          by_cases hid : m.msg_id = id
          · obtain ⟨e, he, heid, hcontent⟩ :=
              guess_has_id .delivered (Bool.eq_false_iff.mpr hany) hguess
            rw [← hcontent]
            exact .inr (h e he m hm (heid.trans (congrArg id_text hid.symm)))
          · exact .inl hid
    | _ => cases hreceived

/-- In a run, ids go to entries with other contents exactly when a guess is wrong. -/
theorem receipts_are_attributed_iff_guesses_are_right {as : List Label}
    (hr : chat.machine.run as = some s) :
    (∀ bs s', bs <+: as → chat.machine.run bs = some s' → Attributed s') ↔
      chat.machine.Meets GuessesRight as := by
  apply Machine.always_iff_meets (I := Tracked) _ _ _ _ hr
  · exact ⟨fun _ h => absurd h List.not_mem_nil, fun _ h => absurd h List.not_mem_nil,
      List.nodup_nil⟩
  · exact fun _ _ _ h hok hs => tracked_step h hok hs
  · exact fun _ h entry hentry m hm => (h.entries entry hentry).content m hm
  · exact fun _ _ _ _ hs h => guessesRight_of_attributed h hs

end Step

/-! ## Two messages of one user -/

section Examples

/-- User 5 and the peer 7, who has come online when the second frame is read. -/
def friends : Chat where
  conv_id := 100
  self_user_id := 5
  peer_id := 7
  locale_compare left right := if left < right then -1 else if left = right then 0 else 1

def rows : Stores :=
  ⟨{ database.Postgres.empty with conv_members := [(100, 5), (100, 7)] }, fun _ => []⟩

def answered (msg_id : MsgId) (online : Bool) : Answered :=
  ⟨rows, { after rows with msg_id := msg_id, online := fun _ _ => online }⟩

/-- Two messages, of which the server reads the first one with the peer offline or online. -/
def two_messages (online : Bool) : List Label :=
  [.send "one" "1-a" 1, .send "two " "2-b" 2, .settle 0, .serve (answered 11 online),
    .serve (answered 12 true), .settle 0, .receive 0]

theorem receipts_of_a_peer_who_is_online :
    ∃ s, friends.machine.run (two_messages true) = some s ∧
      ∀ bs s', bs <+: two_messages true → friends.machine.run bs = some s' → Attributed s' :=
  ⟨_, rfl, (receipts_are_attributed_iff_guesses_are_right rfl).mpr (by decide +kernel)⟩

/-- The receipt of the second message gives its id to the first one. -/
theorem a_receipt_goes_to_another_message :
    ∃ s, friends.machine.run (two_messages false) = some s ∧ ¬ Attributed s := by
  refine ⟨_, rfl, fun h => ?_⟩
  have hfirst := h _ List.mem_cons_self _ (List.mem_cons_of_mem _ List.mem_cons_self) (by decide)
  revert hfirst
  decide +kernel

end Examples

end loomic.receipt_guesses
