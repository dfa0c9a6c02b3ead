-- The receipt status of an entry over any run of the reducers of a conversation: merges,
-- settle timers, receipts and read marks. The entry is followed by its id, and across the
-- steps that give it an id of the server.
import Loomic.MessageMerge

open following loomic.message_list loomic.message_merge

namespace loomic.receipt_ranks

/-! ## The reducers -/

inductive Step
  | merge (incoming : List ConversationMessage)
  | settle (message_id : String)
  | receipt (msg_id : String) (status : MessageReceiptStatus)
  | read (read_at_ms : Int)

def apply (locale_compare : String → String → Int) (l : List ConversationMessage) :
    Step → List ConversationMessage
  | .merge incoming => merge_conversation_messages locale_compare l incoming
  | .settle message_id => settle_optimistic_message l message_id
  | .receipt msg_id status => update_message_receipt_status l msg_id status
  | .read read_at_ms => mark_conversation_messages_read l read_at_ms

def run (locale_compare : String → String → Int) (l : List ConversationMessage)
    (steps : List Step) : List ConversationMessage :=
  steps.foldl (apply locale_compare) l

/-! ## Where an entry goes -/

/-- The id of the entry that stands in the place of the one with the id, after a turn. -/
def follow_message (l : List ConversationMessage) (message : ConversationMessage) :
    String → String :=
  if l.any (·.id = message.id) then id
  else match l.find? (is_same_delivered_message · message) with
    | some entry => Function.update id entry.id message.id
    | none => id

def follow_receipt (l : List ConversationMessage) (msg_id : String) : String → String :=
  if l.any (·.id = msg_id) then id
  else match l.find? awaits_id with
    | some entry => Function.update id entry.id msg_id
    | none => id

def follow (l : List ConversationMessage) : Step → String → String
  | .merge incoming => follow_run merge_message follow_message l incoming
  | .settle _ => id
  | .receipt msg_id _ => follow_receipt l msg_id
  | .read _ => id

/-- The rank of an entry. -/
def rank (entry : ConversationMessage) : Int := receipt_rank entry.receipt_status

/-! ## One step -/

section Step

variable {l : List ConversationMessage}

theorem merge_message_rises (hl : (ids l).Nodup) (message : ConversationMessage) :
    Rises (·.id) rank (follow_message l message) l (merge_message l message) := by
  have hturn := turn_merge_message l message
  generalize merge_message l message = l' at hturn
  unfold follow_message
  cases hturn with
  | updated l₁ entry l₂ hid =>
    rw [if_pos (by simp [hid])]
    exact rises_replace_same hid.symm (rank_le_merge_left _ _)
  | taken_over l₁ entry l₂ hnew hfirst =>
    rw [if_neg fun hany => hnew (any_id_iff.mp hany), hfirst]
    exact rises_replace hl (rank_le_merge_left _ _)
  | appended l hnew hother =>
    rw [if_neg fun hany => hnew (any_id_iff.mp hany),
      List.find?_eq_none.mpr (by simpa using hother)]
    exact rises_append l [message]

theorem merge_rises (locale_compare : String → String → Int) (hl : (ids l).Nodup)
    (incoming : List ConversationMessage) :
    (ids (merge_conversation_messages locale_compare l incoming)).Nodup ∧
      Rises (·.id) rank (follow_run merge_message follow_message l incoming) l
        (merge_conversation_messages locale_compare l incoming) := by
  have hperm := List.perm_insertionSort (compare_messages locale_compare · · ≤ 0)
    (incoming.foldl merge_message l)
  obtain ⟨hdistinct, hrises⟩ := rises_run (·.id) rank (I := fun l => (ids l).Nodup)
    (fun l message hl => turn_distinct hl (turn_merge_message l message))
    (fun l message hl => merge_message_rises hl message) incoming hl
  exact ⟨(hperm.map _).nodup_iff.mpr hdistinct, hrises.perm hperm⟩

theorem settle_rises (l : List ConversationMessage) (message_id : String) :
    Rises (·.id) rank id l (settle_optimistic_message l message_id) := by
  apply rises_map
  · intro entry _
    split <;> rfl
  · intro entry _
    split
    · exact rank_le_merge_left _ _
    · exact le_refl _

/-- No status is higher than "read". -/
theorem rank_le_read (status : Option MessageReceiptStatus) :
    receipt_rank status ≤ receipt_rank (some .read) := by
  rcases status with _ | status
  · decide
  · cases status <;> decide

theorem read_rises (l : List ConversationMessage) (read_at_ms : Int) :
    (ids (mark_conversation_messages_read l read_at_ms)) = ids l ∧
      Rises (·.id) rank id l (mark_conversation_messages_read l read_at_ms) := by
  constructor
  · unfold ids mark_conversation_messages_read
    rw [List.map_map]
    refine List.map_congr_left fun entry _ => ?_
    simp only [Function.comp]
    split <;> rfl
  · apply rises_map
    · intro entry _
      split <;> rfl
    · intro entry _
      split
      · exact le_refl _
      · exact rank_le_read _

/-- A receipt finds the entry with its id, or gives its id to the first entry that waits. -/
theorem receipt_rises (hl : (ids l).Nodup) (msg_id : String) (status : MessageReceiptStatus) :
    (ids (update_message_receipt_status l msg_id status)).Nodup ∧
      Rises (·.id) rank (follow_receipt l msg_id) l
        (update_message_receipt_status l msg_id status) := by
  unfold update_message_receipt_status follow_receipt
  by_cases hany : l.any (·.id = msg_id) = true
  · rw [if_pos hany, if_pos hany]
    obtain ⟨l₁, entry, l₂, rfl, -, hupdate⟩ := update_first_eq (fun message => { message with
      pending := false
      pending_visible := false
      receipt_status := merge_receipt_status message.receipt_status (some status) }) hany
    rw [hupdate]
    exact ⟨nodup_replace hl (.inl rfl), rises_replace_same rfl (rank_le_merge_left _ _)⟩
  · rw [if_neg hany, if_neg hany]
    by_cases hwaits : l.any awaits_id = true
    · have hnew : msg_id ∉ ids l := by simpa [ids] using hany
      obtain ⟨l₁, entry, l₂, rfl, hfirst, hupdate⟩ := update_first_eq (fun message =>
        { message with
          id := msg_id
          pending := false
          pending_visible := false
          receipt_status := merge_receipt_status message.receipt_status (some status) }) hwaits
      rw [hupdate, hfirst]
      exact ⟨nodup_replace hl (.inr hnew), rises_replace hl (rank_le_merge_left _ _)⟩
    · rw [Bool.not_eq_true] at hwaits
      rw [update_first_of_none _ hwaits, List.find?_eq_none.mpr (by simpa using hwaits)]
      exact ⟨hl, rises_refl l⟩

theorem apply_rises (locale_compare : String → String → Int) (hl : (ids l).Nodup) (step : Step) :
    (ids (apply locale_compare l step)).Nodup ∧
      Rises (·.id) rank (follow l step) l (apply locale_compare l step) := by
  cases step with
  | merge incoming => exact merge_rises locale_compare hl incoming
  | settle message_id => exact ⟨(ids_settle l message_id).symm ▸ hl, settle_rises l message_id⟩
  | receipt msg_id status => exact receipt_rises hl msg_id status
  | read read_at_ms =>
    obtain ⟨hids, hrises⟩ := read_rises l read_at_ms
    exact ⟨hids.symm ▸ hl, hrises⟩

end Step

/-! ## Every run -/

/-- From one step to the next, no entry's rank goes down, and so in the whole run. -/
theorem a_receipt_status_never_goes_back (locale_compare : String → String → Int)
    {l : List ConversationMessage} (hl : (ids l).Nodup) (steps : List Step) :
    (ids (run locale_compare l steps)).Nodup ∧
      (∀ step, Rises (·.id) rank (follow (run locale_compare l steps) step)
        (run locale_compare l steps) (apply locale_compare (run locale_compare l steps) step)) ∧
      Rises (·.id) rank (follow_run (apply locale_compare) follow l steps) l
        (run locale_compare l steps) := by
  obtain ⟨hdistinct, hrises⟩ := rises_run (·.id) rank (I := fun l => (ids l).Nodup)
    (fun l step hl => (apply_rises locale_compare hl step).1)
    (fun l step hl => (apply_rises locale_compare hl step).2) steps hl
  exact ⟨hdistinct, fun step => (apply_rises locale_compare hdistinct step).2, hrises⟩

/-- A message is settled and delivered, its copy comes, and it is read. -/
def hello_steps : List Step :=
  [.settle "temp-1", .receipt "100" .delivered, .merge [hello_copy], .read 2000]

theorem the_hello_is_followed :
    (ids (run compare_ids [hello_sent] hello_steps)).Nodup ∧
      (∀ step, Rises (·.id) rank (follow (run compare_ids [hello_sent] hello_steps) step)
        (run compare_ids [hello_sent] hello_steps)
        (apply compare_ids (run compare_ids [hello_sent] hello_steps) step)) ∧
      Rises (·.id) rank (follow_run (apply compare_ids) follow [hello_sent] hello_steps)
        [hello_sent] (run compare_ids [hello_sent] hello_steps) :=
  a_receipt_status_never_goes_back compare_ids (by decide) hello_steps

end loomic.receipt_ranks
