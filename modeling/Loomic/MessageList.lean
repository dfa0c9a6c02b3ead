-- The message list of a conversation in the browser (ChatWorkspace): what is merged
-- into it, and what the events of a message do to its entry.
import Mathlib.Data.List.Sort
import Loomic.Frame

open loomic.frame

namespace loomic.message_list

inductive MessageReceiptStatus
  | sending
  | sent
  | delivered
  | read
  deriving DecidableEq

inductive Direction
  | incoming
  | outgoing
  deriving DecidableEq

/-- A flag that is absent counts as false. -/
structure ConversationMessage where
  id : String
  conv_id : String
  sender_id : String
  recipient_id : String
  content : String
  timestamp_ms : Int
  direction : Direction
  pending : Bool := false
  pending_visible : Bool := false
  receipt_status : Option MessageReceiptStatus := none
  deriving DecidableEq

/-- An id as the server writes it. -/
def id_text (id : UInt64) : String := toString id.toNat

/-! ## The receipts -/

def receipt_rank : Option MessageReceiptStatus → Int
  | some .sending => 0
  | some .sent => 1
  | some .delivered => 2
  | some .read => 3
  | none => -1

def merge_receipt_status (current next : Option MessageReceiptStatus) :
    Option MessageReceiptStatus :=
  if receipt_rank next > receipt_rank current then next else current

/-! ## The entries -/

/-- The entry of a message that is sent. `drawn` is what the clock and `Math.random` give. -/
def build_optimistic_message (conv_id sender_id recipient_id content drawn : String)
    (now : Int) : ConversationMessage where
  id := "temp-" ++ drawn
  conv_id := conv_id
  sender_id := sender_id
  recipient_id := recipient_id
  content := content
  timestamp_ms := now
  direction := .outgoing
  pending := true
  pending_visible := true
  receipt_status := some .sending

def is_optimistic_message (message : ConversationMessage) : Bool :=
  "temp-".toList.isPrefixOf message.id.toList

def is_same_delivered_message (candidate incoming : ConversationMessage) : Bool :=
  candidate.pending && candidate.conv_id = incoming.conv_id &&
    candidate.sender_id = incoming.sender_id && candidate.direction = incoming.direction &&
    candidate.content = incoming.content &&
    (candidate.timestamp_ms - incoming.timestamp_ms).natAbs < 15000

/-! ## The list -/

/-- `findIndex`, and the entry there replaced. -/
def update_first {α : Type} (p : α → Bool) (f : α → α) : List α → List α
  | [] => []
  | a :: l => if p a then f a :: l else a :: update_first p f l

/-- The turn of one incoming message in the loop. -/
def merge_message (merged : List ConversationMessage) (message : ConversationMessage) :
    List ConversationMessage :=
  if merged.any (·.id = message.id) then
    update_first (·.id = message.id) (fun entry => { message with
      receipt_status := merge_receipt_status entry.receipt_status message.receipt_status }) merged
  else if merged.any (is_same_delivered_message · message) then
    update_first (is_same_delivered_message · message) (fun entry => { message with
      pending := false
      pending_visible := false
      receipt_status := merge_receipt_status entry.receipt_status
        (message.receipt_status.or (some .sent)) }) merged
  else merged ++ [message]

/-- The order of `toSorted`. -/
def compare_messages (locale_compare : String → String → Int)
    (left right : ConversationMessage) : Int :=
  if left.timestamp_ms = right.timestamp_ms then locale_compare left.id right.id
  else left.timestamp_ms - right.timestamp_ms

/-- `localeCompare` is a parameter. `toSorted` is stable. -/
def merge_conversation_messages (locale_compare : String → String → Int)
    (existing incoming : List ConversationMessage) : List ConversationMessage :=
  (incoming.foldl merge_message existing).insertionSort
    (compare_messages locale_compare · · ≤ 0)

def settle_optimistic_message (messages : List ConversationMessage) (message_id : String) :
    List ConversationMessage :=
  messages.map fun message =>
    if message.id = message_id then { message with
      pending := false
      pending_visible := false
      receipt_status := merge_receipt_status message.receipt_status (some .sent) }
    else message

/-- An entry whose id the server has not given yet. -/
def awaits_id (message : ConversationMessage) : Bool :=
  message.direction = .outgoing && is_optimistic_message message

def update_message_receipt_status (current : List ConversationMessage) (msg_id : String)
    (status : MessageReceiptStatus) : List ConversationMessage :=
  if current.any (·.id = msg_id) then
    update_first (·.id = msg_id) (fun message => { message with
      pending := false
      pending_visible := false
      receipt_status := merge_receipt_status message.receipt_status (some status) }) current
  else
    update_first awaits_id (fun message => { message with
      id := msg_id
      pending := false
      pending_visible := false
      receipt_status := merge_receipt_status message.receipt_status (some status) }) current

def mark_conversation_messages_read (current : List ConversationMessage) (read_at_ms : Int) :
    List ConversationMessage :=
  current.map fun message =>
    if message.direction ≠ .outgoing ∨ message.pending = true ∨
        message.timestamp_ms > read_at_ms ∨ message.receipt_status = some .read then message
    else { message with
      pending := false
      pending_visible := false
      receipt_status := some .read }

def remove_message (current : List ConversationMessage) (msg_id : String) :
    List ConversationMessage :=
  current.filter (·.id ≠ msg_id)

/-! ## Where an entry comes from -/

section UpdateFirst

variable {α : Type} {p : α → Bool} {f : α → α} {l : List α} {x : α}

theorem mem_update_first (h : x ∈ update_first p f l) :
    x ∈ l ∨ ∃ a, l.find? p = some a ∧ x = f a := by
  induction l with
  | nil => cases h
  | cons a l ih =>
    unfold update_first at h
    by_cases hp : p a = true
    · rw [if_pos hp] at h
      rcases List.mem_cons.mp h with rfl | h
      · exact .inr ⟨a, List.find?_cons_of_pos hp, rfl⟩
      · exact .inl (List.mem_cons_of_mem a h)
    · rw [if_neg hp] at h
      rw [List.find?_cons_of_neg hp]
      rcases List.mem_cons.mp h with rfl | h
      · exact .inl List.mem_cons_self
      · rcases ih h with h | h
        · exact .inl (List.mem_cons_of_mem a h)
        · exact .inr h

theorem update_first_mem {a : α} (h : l.find? p = some a) : f a ∈ update_first p f l := by
  induction l with
  | nil => cases h
  | cons b l ih =>
    unfold update_first
    by_cases hp : p b = true
    · rw [List.find?_cons_of_pos hp] at h
      obtain rfl := Option.some.inj h
      rw [if_pos hp]
      exact List.mem_cons_self
    · rw [List.find?_cons_of_neg hp] at h
      rw [if_neg hp]
      exact List.mem_cons_of_mem b (ih h)

theorem update_first_eq (f : α → α) (h : l.any p = true) :
    ∃ l₁ a l₂, l = l₁ ++ a :: l₂ ∧ l.find? p = some a ∧ update_first p f l = l₁ ++ f a :: l₂ := by
  induction l with
  | nil => cases h
  | cons b l ih =>
    unfold update_first
    by_cases hp : p b = true
    · rw [if_pos hp, List.find?_cons_of_pos hp]
      exact ⟨[], b, l, rfl, rfl, rfl⟩
    · rw [if_neg hp, List.find?_cons_of_neg hp]
      obtain ⟨l₁, a, l₂, rfl, hfind, hupdate⟩ := ih (by simpa [hp] using h)
      exact ⟨b :: l₁, a, l₂, rfl, hfind, by rw [hupdate]; rfl⟩

theorem update_first_of_none (f : α → α) (h : l.any p = false) : update_first p f l = l := by
  induction l with
  | nil => rfl
  | cons b l ih =>
    simp only [List.any_cons, Bool.or_eq_false_iff] at h
    unfold update_first
    rw [h.1, ih h.2]
    simp

end UpdateFirst

/-- The list has an entry with the id and the content. -/
def Shows (l : List ConversationMessage) (message : ConversationMessage) : Prop :=
  ∃ entry ∈ l, entry.id = message.id ∧ entry.content = message.content

section Shows

variable {l l' : List ConversationMessage} {message entry : ConversationMessage}

theorem shows_of_mem (h : entry ∈ l) : Shows l entry := ⟨entry, h, rfl, rfl⟩

theorem shows_append_left (h : Shows l entry) : Shows (l ++ l') entry := by
  obtain ⟨e, he, hsame⟩ := h
  exact ⟨e, List.mem_append_left l' he, hsame⟩

/-- One turn shows what was there, and the message. -/
theorem shows_merge_message (h : entry ∈ merge_message l message) :
    Shows (l ++ [message]) entry := by
  have hnew : message ∈ l ++ [message] := List.mem_append_right l (List.mem_singleton.mpr rfl)
  unfold merge_message at h
  split at h
  · rcases mem_update_first h with h | ⟨_, _, rfl⟩
    · exact shows_append_left (shows_of_mem h)
    · exact ⟨message, hnew, rfl, rfl⟩
  · split at h
    · rcases mem_update_first h with h | ⟨_, _, rfl⟩
      · exact shows_append_left (shows_of_mem h)
      · exact ⟨message, hnew, rfl, rfl⟩
    · exact shows_of_mem h

theorem shows_merge (locale_compare : String → String → Int) {existing incoming}
    (h : entry ∈ merge_conversation_messages locale_compare existing incoming) :
    Shows (existing ++ incoming) entry := by
  unfold merge_conversation_messages at h
  rw [List.mem_insertionSort] at h
  induction incoming generalizing existing with
  | nil => exact shows_append_left (shows_of_mem h)
  | cons message incoming ih =>
    obtain ⟨e, he, hid, hcontent⟩ := ih h
    rcases List.mem_append.mp he with he | he
    · obtain ⟨e', he', hid', hcontent'⟩ := shows_merge_message he
      refine ⟨e', ?_, hid'.trans hid, hcontent'.trans hcontent⟩
      rw [List.append_cons]
      exact List.mem_append_left incoming he'
    · exact ⟨e, List.mem_append_right _ (List.mem_cons_of_mem _ he), hid, hcontent⟩

theorem shows_settle (message_id : String)
    (h : entry ∈ settle_optimistic_message l message_id) : Shows l entry := by
  obtain ⟨e, he, rfl⟩ := List.mem_map.mp h
  refine ⟨e, he, ?_⟩
  split <;> exact ⟨rfl, rfl⟩

theorem shows_mark_read {read_at_ms : Int}
    (h : entry ∈ mark_conversation_messages_read l read_at_ms) : Shows l entry := by
  obtain ⟨e, he, rfl⟩ := List.mem_map.mp h
  refine ⟨e, he, ?_⟩
  split <;> exact ⟨rfl, rfl⟩

theorem shows_remove {msg_id : String} (h : entry ∈ remove_message l msg_id) : Shows l entry :=
  shows_of_mem (List.mem_filter.mp h).1

/-- A receipt changes no text, except that the first entry which waits for an id gets one when
no entry has it. -/
theorem mem_update_receipt {msg_id : String} {status : MessageReceiptStatus}
    (h : entry ∈ update_message_receipt_status l msg_id status) :
    Shows l entry ∨ l.any (·.id = msg_id) = false ∧
      ∃ guess, l.find? awaits_id = some guess ∧ entry.id = msg_id ∧
        entry.content = guess.content := by
  unfold update_message_receipt_status at h
  split at h
  · rcases mem_update_first h with h | ⟨e, he, rfl⟩
    · exact .inl (shows_of_mem h)
    · exact .inl ⟨e, List.mem_of_find?_eq_some he, rfl, rfl⟩
  · rename_i hany
    rcases mem_update_first h with h | ⟨guess, hguess, rfl⟩
    · exact .inl (shows_of_mem h)
    · exact .inr ⟨Bool.eq_false_iff.mpr hany, guess, hguess, rfl, rfl⟩

/-- When no entry has the id, that first entry does have it afterwards. -/
theorem guess_has_id {msg_id : String} (status : MessageReceiptStatus)
    {guess : ConversationMessage} (hany : l.any (·.id = msg_id) = false)
    (hguess : l.find? awaits_id = some guess) :
    ∃ e ∈ update_message_receipt_status l msg_id status,
      e.id = msg_id ∧ e.content = guess.content := by
  unfold update_message_receipt_status
  rw [if_neg (Bool.eq_false_iff.mp hany)]
  exact ⟨_, update_first_mem hguess, rfl, rfl⟩

end Shows

end loomic.message_list
