-- What a merge does to the message list of a conversation (ChatWorkspace): each turn of the
-- loop updates an entry, takes an optimistic one over or appends the message. The same routine
-- serves the copies of the server and the messages that the user has just sent.
import Mathlib.Data.List.Induction
import Loomic.Lib.Following
import Loomic.MessageList

open following loomic.message_list

namespace loomic.message_merge

/-! ## The receipts -/

section Receipts

variable (current next : Option MessageReceiptStatus)

theorem rank_le_merge_left :
    receipt_rank current ≤ receipt_rank (merge_receipt_status current next) := by
  unfold merge_receipt_status
  split <;> omega

theorem rank_le_merge_right :
    receipt_rank next ≤ receipt_rank (merge_receipt_status current next) := by
  unfold merge_receipt_status
  split <;> omega

variable {current next}

theorem merge_of_rank_le (h : receipt_rank next ≤ receipt_rank current) :
    merge_receipt_status current next = current := by
  unfold merge_receipt_status
  rw [if_neg (by omega)]

theorem rank_le_or_sent (status : Option MessageReceiptStatus) :
    receipt_rank status ≤ receipt_rank (status.or (some .sent)) := by
  cases status <;> simp [receipt_rank]

end Receipts

/-! ## One turn of the loop -/

def ids (l : List ConversationMessage) : List String := l.map (·.id)

/-- The entry with the id of the message, afterwards. -/
def updated (entry message : ConversationMessage) : ConversationMessage :=
  { message with
    receipt_status := merge_receipt_status entry.receipt_status message.receipt_status }

/-- What stands in the place of an optimistic entry. -/
def taken_over (entry message : ConversationMessage) : ConversationMessage :=
  { message with
    pending := false
    pending_visible := false
    receipt_status := merge_receipt_status entry.receipt_status
      (message.receipt_status.or (some .sent)) }

/-- All that a turn can do to the list. -/
inductive Turn (message : ConversationMessage) :
    List ConversationMessage → List ConversationMessage → Prop
  | updated (l₁ : List ConversationMessage) (entry : ConversationMessage)
      (l₂ : List ConversationMessage) (hid : entry.id = message.id) :
      Turn message (l₁ ++ entry :: l₂) (l₁ ++ updated entry message :: l₂)
  | taken_over (l₁ : List ConversationMessage) (entry : ConversationMessage)
      (l₂ : List ConversationMessage) (hnew : message.id ∉ ids (l₁ ++ entry :: l₂))
      (hfirst : (l₁ ++ entry :: l₂).find? (is_same_delivered_message · message) = some entry) :
      Turn message (l₁ ++ entry :: l₂) (l₁ ++ taken_over entry message :: l₂)
  | appended (l : List ConversationMessage) (hnew : message.id ∉ ids l)
      (hother : ∀ entry ∈ l, is_same_delivered_message entry message = false) :
      Turn message l (l ++ [message])

section Turn

variable {l l' : List ConversationMessage} {message entry : ConversationMessage}

theorem any_id_iff : l.any (·.id = message.id) = true ↔ message.id ∈ ids l := by
  simp [ids]

theorem turn_merge_message (l : List ConversationMessage) (message : ConversationMessage) :
    Turn message l (merge_message l message) := by
  unfold merge_message
  split
  · rename_i hid
    obtain ⟨l₁, entry, l₂, rfl, hfind, hupdate⟩ := update_first_eq (updated · message) hid
    change Turn message _ (update_first _ (updated · message) _)
    rw [hupdate]
    exact .updated l₁ entry l₂ (by simpa using List.find?_some hfind)
  · rename_i hid
    have hnew : message.id ∉ ids l := fun hmem => hid (any_id_iff.mpr hmem)
    split
    · rename_i hsame
      obtain ⟨l₁, entry, l₂, rfl, hfind, hupdate⟩ := update_first_eq (taken_over · message) hsame
      change Turn message _ (update_first _ (taken_over · message) _)
      rw [hupdate]
      exact .taken_over l₁ entry l₂ hnew hfind
    · rename_i hsame
      exact .appended l hnew fun entry hentry => by
        rw [← Bool.not_eq_true]
        exact fun hmatch => hsame (List.any_eq_true.mpr ⟨entry, hentry, hmatch⟩)

/-- The entry is pending, and the message is the same one less than 15 seconds apart. -/
structure TakesOver (message entry : ConversationMessage) : Prop where
  pending : entry.pending = true
  conv_id : entry.conv_id = message.conv_id
  sender_id : entry.sender_id = message.sender_id
  direction : entry.direction = message.direction
  content : entry.content = message.content
  timestamp_ms : (entry.timestamp_ms - message.timestamp_ms).natAbs < 15000

theorem takes_over_iff :
    is_same_delivered_message entry message = true ↔ TakesOver message entry := by
  unfold is_same_delivered_message
  simp only [Bool.and_eq_true, decide_eq_true_eq]
  constructor
  · rintro ⟨⟨⟨⟨⟨hpending, hconv⟩, hsender⟩, hdirection⟩, hcontent⟩, htime⟩
    exact ⟨hpending, hconv, hsender, hdirection, hcontent, htime⟩
  · rintro ⟨hpending, hconv, hsender, hdirection, hcontent, htime⟩
    exact ⟨⟨⟨⟨⟨hpending, hconv⟩, hsender⟩, hdirection⟩, hcontent⟩, htime⟩

theorem ids_append (l₁ : List ConversationMessage) (entry : ConversationMessage)
    (l₂ : List ConversationMessage) : ids (l₁ ++ entry :: l₂) = ids l₁ ++ entry.id :: ids l₂ := by
  simp [ids]

theorem mem_ids {entry : ConversationMessage} (h : entry ∈ l) : entry.id ∈ ids l :=
  List.mem_map_of_mem h

theorem turn_arrives (h : Turn message l l') : message.id ∈ ids l' := by
  cases h with
  | updated l₁ entry l₂ _ => simp [ids_append, updated]
  | taken_over l₁ entry l₂ _ _ => simp [ids_append, taken_over]
  | appended l _ _ => simp [ids]

/-- The entry that the turn writes. -/
inductive Written (l : List ConversationMessage) (message : ConversationMessage) :
    ConversationMessage → Prop
  | updated (old : ConversationMessage) (hold : old ∈ l) (hid : old.id = message.id) :
      Written l message (updated old message)
  | taken_over (old : ConversationMessage) (hnew : message.id ∉ ids l) :
      Written l message (taken_over old message)
  | appended (hnew : message.id ∉ ids l) : Written l message message

theorem Written.id_eq (h : Written l message entry) : entry.id = message.id := by
  cases h <;> rfl

theorem Written.pending (h : Written l message entry) (hmessage : message.pending = false) :
    entry.pending = false := by
  cases h with
  | updated => exact hmessage
  | taken_over => rfl
  | appended => exact hmessage

/-- Each entry is an old one with another id, or the one that is written. -/
theorem mem_turn (hl : (ids l).Nodup) (h : Turn message l l') (hentry : entry ∈ l') :
    entry ∈ l ∧ entry.id ≠ message.id ∨ Written l message entry := by
  cases h with
  | updated l₁ old l₂ hid =>
    rw [ids_append, List.nodup_middle, List.nodup_cons] at hl
    rcases List.mem_append.mp hentry with hmem | hmem
    · refine .inl ⟨List.mem_append_left _ hmem, fun heq => hl.1 ?_⟩
      rw [hid, ← heq]
      exact List.mem_append_left _ (mem_ids hmem)
    · rcases List.mem_cons.mp hmem with rfl | hmem
      · exact .inr (.updated old (by simp) hid)
      · refine .inl ⟨by simp [hmem], fun heq => hl.1 ?_⟩
        rw [hid, ← heq]
        exact List.mem_append_right _ (mem_ids hmem)
  | taken_over l₁ old l₂ hnew _ =>
    have hother : ∀ e ∈ l₁ ++ old :: l₂, e.id ≠ message.id := fun e he heq =>
      hnew (heq ▸ mem_ids he)
    rcases List.mem_append.mp hentry with hmem | hmem
    · exact .inl ⟨List.mem_append_left _ hmem, hother _ (List.mem_append_left _ hmem)⟩
    · rcases List.mem_cons.mp hmem with rfl | hmem
      · exact .inr (.taken_over old hnew)
      · exact .inl ⟨by simp [hmem], hother _ (by simp [hmem])⟩
  | appended l hnew _ =>
    rcases List.mem_append.mp hentry with hmem | hmem
    · exact .inl ⟨hmem, fun heq => hnew (heq ▸ mem_ids hmem)⟩
    · obtain rfl := List.mem_singleton.mp hmem
      exact .inr (.appended hnew)

/-- One id goes at most, that of an entry which the message takes over. -/
theorem turn_ids (hl : (ids l).Nodup) (h : Turn message l l') :
    (∀ id ∈ ids l, id ∈ ids l') ∨ ∃ entry ∈ l, TakesOver message entry ∧
      message.id ∉ ids l ∧ entry.id ∉ ids l' ∧ ∀ id ∈ ids l, id ∈ ids l' ∨ id = entry.id := by
  cases h with
  | updated l₁ entry l₂ hid =>
    left
    intro id hmem
    rw [ids_append] at hmem ⊢
    rwa [hid] at hmem
  | taken_over l₁ entry l₂ hnew hfirst =>
    have hsame := List.find?_some hfirst
    right
    refine ⟨entry, by simp, takes_over_iff.mp hsame, hnew, ?_, ?_⟩
    · rw [ids_append, List.nodup_middle, List.nodup_cons] at hl
      rw [ids_append, List.mem_append, List.mem_cons] at hnew
      rw [ids_append, List.mem_append, List.mem_cons]
      have hne : entry.id ≠ (taken_over entry message).id := fun heq => hnew (.inr (.inl heq.symm))
      rw [List.mem_append] at hl
      tauto
    · intro id hmem
      rw [ids_append, List.mem_append, List.mem_cons] at hmem ⊢
      tauto
  | appended l _ _ =>
    left
    intro id hmem
    simp only [ids, List.map_append, List.mem_append] at hmem ⊢
    exact .inl hmem

theorem turn_distinct (hl : (ids l).Nodup) (h : Turn message l l') : (ids l').Nodup := by
  cases h with
  | updated l₁ entry l₂ hid => exact nodup_replace hl (.inl hid.symm)
  | taken_over l₁ entry l₂ hnew _ => exact nodup_replace hl (.inr hnew)
  | appended l hnew _ => exact nodup_append_one hl hnew

end Turn

/-! ## A batch -/

/-- The last message of the batch with the id. -/
def last_with (id : String) (batch : List ConversationMessage) : Option ConversationMessage :=
  batch.reverse.find? (·.id = id)

theorem last_with_snoc (id : String) (batch : List ConversationMessage)
    (message : ConversationMessage) :
    last_with id (batch ++ [message]) =
      if message.id = id then some message else last_with id batch := by
  unfold last_with
  rw [List.reverse_append, List.reverse_singleton, List.singleton_append, List.find?_cons]
  split <;> simp_all

/-- Different entries that are missing have been taken over by different messages. -/
def TakenOver (existing batch merged : List ConversationMessage)
    (taker : ConversationMessage → ConversationMessage) : Prop :=
  (∀ entry ∈ existing, entry.id ∉ ids merged →
    taker entry ∈ batch ∧ TakesOver (taker entry) entry) ∧
  ∀ entry ∈ existing, entry.id ∉ ids merged → ∀ other ∈ existing, other.id ∉ ids merged →
    (taker entry).id = (taker other).id → entry = other

/-- The loop after the messages of `batch`. -/
structure Merging (existing batch merged : List ConversationMessage) : Prop where
  unique : (ids existing).Nodup
  distinct : (ids merged).Nodup
  arrived : ∀ message ∈ batch, message.id ∈ ids merged
  settled : ∀ entry ∈ existing, entry.pending = false → entry.id ∈ ids merged
  original : ∀ entry ∈ merged, entry.pending = true → entry ∈ existing ∧ entry.id ∉ ids batch
  taken_over : ∃ taker, TakenOver existing batch merged taker

/-- Each entry has what the messages with its id have brought. -/
structure Absorbed (batch merged : List ConversationMessage) : Prop where
  rank : ∀ entry ∈ merged, ∀ message ∈ batch, message.id = entry.id →
    receipt_rank message.receipt_status ≤ receipt_rank entry.receipt_status
  last : ∀ entry ∈ merged, ∀ message, last_with entry.id batch = some message →
    ∃ visible, entry = { message with
        pending_visible := visible
        receipt_status := entry.receipt_status } ∧
      (message.pending_visible = false → visible = false)

section Batch

variable {existing batch l l' : List ConversationMessage} {message : ConversationMessage}

theorem merging_nil (h : (ids existing).Nodup) : Merging existing [] existing where
  unique := h
  distinct := h
  arrived := by simp
  settled := fun entry hentry _ => mem_ids hentry
  original := fun entry hentry _ => ⟨hentry, by simp [ids]⟩
  taken_over := ⟨id, fun _ hentry hmissing => absurd (mem_ids hentry) hmissing,
    fun _ hentry hmissing => absurd (mem_ids hentry) hmissing⟩

theorem absorbed_nil : Absorbed [] l where
  rank := by simp
  last := by simp [last_with]

theorem same_entry {entry other : ConversationMessage} (h : (ids l).Nodup) (hentry : entry ∈ l)
    (hother : other ∈ l) (hid : entry.id = other.id) : entry = other :=
  List.inj_on_of_nodup_map h hentry hother hid

/-- The entry that the turn takes has a taker of its own. -/
theorem TakenOver.turn {taker : ConversationMessage → ConversationMessage}
    (h : Merging existing batch l) (htaker : TakenOver existing batch l taker)
    (hturn : Turn message l l') : ∃ taker, TakenOver existing (batch ++ [message]) l' taker := by
  obtain ⟨htaken, hdiffer⟩ := htaker
  rcases turn_ids h.distinct hturn with hkept | ⟨lost, hlost, htakes, hnew, hgone, hkept⟩
  · have hmissing : ∀ id, id ∉ ids l' → id ∉ ids l := fun id hid hmem => hid (hkept id hmem)
    refine ⟨taker, fun entry hentry hid => ?_, fun entry hentry hid other hother hid' => ?_⟩
    · obtain ⟨hmem, htakes⟩ := htaken entry hentry (hmissing _ hid)
      exact ⟨List.mem_append_left _ hmem, htakes⟩
    · exact hdiffer entry hentry (hmissing _ hid) other hother (hmissing _ hid')
  · have hexisting : lost ∈ existing := (h.original lost hlost htakes.pending).1
    have hmissing : ∀ entry ∈ existing, entry.id ∉ ids l' → entry ≠ lost → entry.id ∉ ids l := by
      intro entry hentry hid hne hmem
      rcases hkept _ hmem with hstays | heq
      · exact hid hstays
      · exact hne (same_entry h.unique hentry hexisting heq)
    have hold : ∀ entry ∈ existing, entry.id ∉ ids l → (taker entry).id ≠ message.id := by
      intro entry hentry hid heq
      exact hnew (heq ▸ h.arrived _ (htaken entry hentry hid).1)
    refine ⟨Function.update taker lost message, fun entry hentry hid => ?_,
      fun entry hentry hid other hother hid' hsame => ?_⟩
    · by_cases hwhich : entry = lost
      · subst hwhich
        rw [Function.update_self]
        exact ⟨List.mem_append_right _ (List.mem_singleton.mpr rfl), htakes⟩
      · rw [Function.update_of_ne hwhich]
        obtain ⟨hmem, htakes⟩ := htaken entry hentry (hmissing entry hentry hid hwhich)
        exact ⟨List.mem_append_left _ hmem, htakes⟩
    · by_cases hwhich : entry = lost <;> by_cases hwhich' : other = lost
      · rw [hwhich, hwhich']
      · rw [hwhich, Function.update_self, Function.update_of_ne hwhich'] at hsame
        exact absurd hsame.symm (hold other hother (hmissing other hother hid' hwhich'))
      · rw [hwhich', Function.update_self, Function.update_of_ne hwhich] at hsame
        exact absurd hsame (hold entry hentry (hmissing entry hentry hid hwhich))
      · rw [Function.update_of_ne hwhich, Function.update_of_ne hwhich'] at hsame
        exact hdiffer entry hentry (hmissing entry hentry hid hwhich) other hother
          (hmissing other hother hid' hwhich') hsame

theorem Merging.turn (h : Merging existing batch l) (hmessage : message.pending = false)
    (hturn : Turn message l l') : Merging existing (batch ++ [message]) l' where
  unique := h.unique
  distinct := turn_distinct h.distinct hturn
  arrived := by
    intro m hm
    rcases List.mem_append.mp hm with hm | hm
    · rcases turn_ids h.distinct hturn with hkept | ⟨lost, hlost, htakes, _, _, hkept⟩
      · exact hkept _ (h.arrived m hm)
      · refine (hkept _ (h.arrived m hm)).resolve_right fun heq => ?_
        exact (h.original lost hlost htakes.pending).2 (heq ▸ mem_ids hm)
    · obtain rfl := List.mem_singleton.mp hm
      exact turn_arrives hturn
  settled := by
    intro entry hentry hpending
    rcases turn_ids h.distinct hturn with hkept | ⟨lost, hlost, htakes, _, _, hkept⟩
    · exact hkept _ (h.settled entry hentry hpending)
    · refine (hkept _ (h.settled entry hentry hpending)).resolve_right fun heq => ?_
      have hexisting := (h.original lost hlost htakes.pending).1
      rw [same_entry h.unique hentry hexisting heq, htakes.pending] at hpending
      cases hpending
  original := by
    intro entry hentry hpending
    rcases mem_turn h.distinct hturn hentry with ⟨hmem, hne⟩ | hwritten
    · obtain ⟨hexisting, hid⟩ := h.original entry hmem hpending
      refine ⟨hexisting, ?_⟩
      simp only [ids, List.map_append, List.mem_append, List.map_singleton, List.mem_singleton]
      exact not_or.mpr ⟨hid, hne⟩
    · rw [hwritten.pending hmessage] at hpending
      cases hpending
  taken_over := by
    obtain ⟨taker, htaker⟩ := h.taken_over
    exact htaker.turn h hturn

/-- What the turn writes has what the message and the earlier ones with its id have brought. -/
theorem Written.rank {entry : ConversationMessage} (h : Absorbed batch l)
    (harrived : ∀ m ∈ batch, m.id ∈ ids l) (hwritten : Written l message entry) :
    ∀ m ∈ batch ++ [message], m.id = entry.id →
      receipt_rank m.receipt_status ≤ receipt_rank entry.receipt_status := by
  intro m hm hid
  have hlast : receipt_rank message.receipt_status ≤ receipt_rank entry.receipt_status := by
    cases hwritten with
    | updated old _ _ => exact rank_le_merge_right _ _
    | taken_over old _ => exact (rank_le_or_sent _).trans (rank_le_merge_right _ _)
    | appended _ => exact le_refl _
  rcases List.mem_append.mp hm with hm | hm
  · have hmem : message.id ∈ ids l := by
      rw [← hwritten.id_eq, ← hid]
      exact harrived m hm
    cases hwritten with
    | updated old hold holdid =>
      exact (h.rank old hold m hm (hid.trans holdid.symm)).trans (rank_le_merge_left _ _)
    | taken_over old hnew => exact absurd hmem hnew
    | appended hnew => exact absurd hmem hnew
  · rwa [List.mem_singleton.mp hm]

theorem Written.last {entry : ConversationMessage} (hmessage : message.pending = false)
    (hwritten : Written l message entry) :
    ∃ visible, entry = { message with
        pending_visible := visible
        receipt_status := entry.receipt_status } ∧
      (message.pending_visible = false → visible = false) := by
  cases hwritten with
  | updated old _ _ => exact ⟨message.pending_visible, rfl, id⟩
  | taken_over old _ =>
    refine ⟨false, ?_, fun _ => rfl⟩
    unfold message_merge.taken_over
    rw [← hmessage]
  | appended _ => exact ⟨message.pending_visible, rfl, id⟩

theorem Absorbed.turn (h : Absorbed batch l) (hl : Merging existing batch l)
    (hmessage : message.pending = false) (hturn : Turn message l l') :
    Absorbed (batch ++ [message]) l' where
  rank := by
    intro entry hentry m hm hid
    rcases mem_turn hl.distinct hturn hentry with ⟨hmem, hne⟩ | hwritten
    · rcases List.mem_append.mp hm with hm | hm
      · exact h.rank entry hmem m hm hid
      · obtain rfl := List.mem_singleton.mp hm
        exact absurd hid.symm hne
    · exact hwritten.rank h hl.arrived m hm hid
  last := by
    intro entry hentry m hm
    rw [last_with_snoc] at hm
    rcases mem_turn hl.distinct hturn hentry with ⟨hmem, hne⟩ | hwritten
    · rw [if_neg hne.symm] at hm
      exact h.last entry hmem m hm
    · rw [if_pos hwritten.id_eq.symm] at hm
      obtain rfl := Option.some.inj hm
      exact hwritten.last hmessage

/-- The loop as a whole. -/
theorem merging_foldl (hexisting : (ids existing).Nodup)
    (hbatch : ∀ m ∈ batch, m.pending = false) :
    Merging existing batch (batch.foldl merge_message existing) ∧
      Absorbed batch (batch.foldl merge_message existing) := by
  induction batch using List.reverseRecOn with
  | nil => exact ⟨merging_nil hexisting, absorbed_nil⟩
  | append_singleton batch message ih =>
    obtain ⟨hmerging, habsorbed⟩ := ih fun m hm => hbatch m (List.mem_append_left _ hm)
    have hmessage := hbatch message (List.mem_append_right _ (List.mem_singleton.mpr rfl))
    have hturn := turn_merge_message (batch.foldl merge_message existing) message
    rw [List.foldl_concat]
    exact ⟨hmerging.turn hmessage hturn, habsorbed.turn hmerging hmessage hturn⟩

end Batch

/-! ## The same batch again -/

/-- An entry after the batch, when its id is in the list. -/
def refresh (batch : List ConversationMessage) (entry : ConversationMessage) :
    ConversationMessage :=
  batch.foldl (fun entry message =>
    if message.id = entry.id then updated entry message else entry) entry

section Again

variable {batch l : List ConversationMessage} {message entry : ConversationMessage}

theorem refresh_snoc :
    refresh (batch ++ [message]) entry =
      if message.id = (refresh batch entry).id then updated (refresh batch entry) message
      else refresh batch entry := by
  unfold refresh
  rw [List.foldl_concat]

theorem merge_message_of_mem (hl : (ids l).Nodup) (h : message.id ∈ ids l) :
    merge_message l message =
      l.map fun entry => if message.id = entry.id then updated entry message else entry := by
  have hturn := turn_merge_message l message
  generalize merge_message l message = l' at hturn
  cases hturn with
  | updated l₁ old l₂ hid =>
    rw [ids_append, List.nodup_middle, List.nodup_cons, List.mem_append, not_or] at hl
    have hother : ∀ {l₃}, old.id ∉ ids l₃ →
        l₃.map (fun e => if message.id = e.id then updated e message else e) = l₃ := by
      intro l₃ hmem
      refine (List.map_congr_left fun e he => if_neg fun heq => hmem ?_).trans (List.map_id l₃)
      rw [hid, heq]
      exact mem_ids he
    rw [List.map_append, List.map_cons, hother hl.1.1, hother hl.1.2, if_pos hid.symm]
  | taken_over l₁ old l₂ hnew _ => exact absurd h hnew
  | appended l hnew _ => exact absurd h hnew

theorem foldl_merge_of_mem (hl : (ids l).Nodup) (h : ∀ m ∈ batch, m.id ∈ ids l) :
    batch.foldl merge_message l = l.map (refresh batch) := by
  induction batch generalizing l with
  | nil => exact (List.map_id l).symm
  | cons message batch ih =>
    have hids : ids (l.map fun entry =>
        if message.id = entry.id then updated entry message else entry) = ids l := by
      unfold ids
      rw [List.map_map]
      refine List.map_congr_left fun entry _ => ?_
      simp only [Function.comp]
      split
      · rename_i hid
        exact hid
      · rfl
    rw [List.foldl_cons, merge_message_of_mem hl (h message List.mem_cons_self),
      ih (hids ▸ hl) fun m hm => hids ▸ h m (List.mem_cons_of_mem _ hm), List.map_map]
    rfl

/-- Statuses that are there already change nothing, and the last message gives the rest. -/
theorem refresh_eq (h : ∀ m ∈ batch, m.id = entry.id →
      receipt_rank m.receipt_status ≤ receipt_rank entry.receipt_status) :
    refresh batch entry = match last_with entry.id batch with
      | none => entry
      | some m => { m with receipt_status := entry.receipt_status } := by
  induction batch using List.reverseRecOn with
  | nil => rfl
  | append_singleton batch message ih =>
    have hbefore := ih fun m hm => h m (List.mem_append_left _ hm)
    have hsame : (refresh batch entry).id = entry.id ∧
        (refresh batch entry).receipt_status = entry.receipt_status := by
      rw [hbefore]
      split
      · exact ⟨rfl, rfl⟩
      · rename_i m hm
        exact ⟨by simpa using List.find?_some hm, rfl⟩
    rw [refresh_snoc, last_with_snoc, hsame.1]
    split
    · rename_i hid
      have hrank := h message (List.mem_append_right _ (List.mem_singleton.mpr rfl)) hid
      unfold updated
      rw [hsame.2, merge_of_rank_le hrank]
    · exact hbefore

/-- A second time, the batch changes no more than one flag. -/
theorem Absorbed.refresh (h : Absorbed batch l) (hentry : entry ∈ l) :
    ∃ visible, message_merge.refresh batch entry = { entry with pending_visible := visible } ∧
      ((∀ m ∈ batch, m.pending_visible = false) → visible = entry.pending_visible) := by
  rw [refresh_eq (h.rank entry hentry)]
  cases hlast : last_with entry.id batch with
  | none => exact ⟨entry.pending_visible, rfl, fun _ => rfl⟩
  | some m =>
    obtain ⟨visible, heq, hvisible⟩ := h.last entry hentry m hlast
    have hm : m ∈ batch := List.mem_reverse.mp (List.mem_of_find?_eq_some hlast)
    refine ⟨m.pending_visible, ?_, fun hflags => ?_⟩
    · rw [heq]
    · rw [heq, hflags m hm]
      exact (hvisible (hflags m hm)).symm

end Again

/-! ## The law of a merge -/

/-- `localeCompare` orders the ids. -/
structure Consistent (locale_compare : String → String → Int) : Prop where
  total : ∀ a b, locale_compare a b ≤ 0 ∨ locale_compare b a ≤ 0
  trans : ∀ a b c, locale_compare a b ≤ 0 → locale_compare b c ≤ 0 → locale_compare a c ≤ 0

/-- An entry without the flag that `pending` goes with. -/
def hide (entry : ConversationMessage) : ConversationMessage :=
  { entry with pending_visible := false }

structure WellMerged (locale_compare : String → String → Int)
    (existing incoming merged : List ConversationMessage) : Prop where
  distinct : (ids merged).Nodup
  sorted : merged.Pairwise (·.timestamp_ms ≤ ·.timestamp_ms)
  arrived : ∀ message ∈ incoming, message.id ∈ ids merged
  settled : ∀ entry ∈ existing, entry.pending = false → entry.id ∈ ids merged
  taken_over : ∃ taker, TakenOver existing incoming merged taker
  again : (merge_conversation_messages locale_compare merged incoming).map hide = merged.map hide
  unchanged : (∀ message ∈ incoming, message.pending_visible = false) →
    merge_conversation_messages locale_compare merged incoming = merged

section Law

variable {locale_compare : String → String → Int}
  {existing incoming l l' : List ConversationMessage}

theorem total_compare (h : Consistent locale_compare) :
    Std.Total (compare_messages locale_compare · · ≤ 0) where
  total left right := by
    have hids := h.total left.id right.id
    unfold compare_messages
    split <;> split <;> omega

theorem trans_compare (h : Consistent locale_compare) :
    IsTrans _ (compare_messages locale_compare · · ≤ 0) where
  trans a b c hab hbc := by
    have hids := h.trans a.id b.id c.id
    unfold compare_messages at *
    split at hab <;> split at hbc <;> split <;> omega

/-- The order of the list does not matter to what is in it. -/
theorem Merging.perm (h : Merging existing incoming l) (hperm : l'.Perm l) :
    Merging existing incoming l' := by
  have hids : ∀ {id}, id ∈ ids l' ↔ id ∈ ids l := (hperm.map _).mem_iff
  refine ⟨h.unique, (hperm.map _).nodup_iff.mpr h.distinct,
    fun m hm => hids.mpr (h.arrived m hm),
    fun entry hentry hpending => hids.mpr (h.settled entry hentry hpending),
    fun entry hentry => h.original entry (hperm.mem_iff.mp hentry), ?_⟩
  obtain ⟨taker, htaken, hdiffer⟩ := h.taken_over
  exact ⟨taker, fun entry hentry hid => htaken entry hentry (mt hids.mpr hid),
    fun entry hentry hid other hother hid' =>
      hdiffer entry hentry (mt hids.mpr hid) other hother (mt hids.mpr hid')⟩

theorem Absorbed.perm (h : Absorbed incoming l) (hperm : l'.Perm l) : Absorbed incoming l' :=
  ⟨fun entry hentry => h.rank entry (hperm.mem_iff.mp hentry),
    fun entry hentry => h.last entry (hperm.mem_iff.mp hentry)⟩

theorem merge_again (hsorted : l.Pairwise (compare_messages locale_compare · · ≤ 0))
    (hmerging : Merging existing incoming l) (habsorbed : Absorbed incoming l) :
    merge_conversation_messages locale_compare l incoming = l.map (refresh incoming) := by
  unfold merge_conversation_messages
  rw [foldl_merge_of_mem hmerging.distinct hmerging.arrived]
  apply List.Pairwise.insertionSort_eq
  rw [List.pairwise_map]
  refine hsorted.imp_of_mem fun {a b} ha hb hab => ?_
  obtain ⟨_, hrefresh, _⟩ := habsorbed.refresh ha
  obtain ⟨_, hrefresh', _⟩ := habsorbed.refresh hb
  rw [hrefresh, hrefresh']
  exact hab

/-- Messages that are not pending leave the list well formed. -/
theorem merging_keeps_the_list_well_formed (hcompare : Consistent locale_compare)
    (hexisting : (ids existing).Nodup) (hincoming : ∀ m ∈ incoming, m.pending = false) :
    WellMerged locale_compare existing incoming
      (merge_conversation_messages locale_compare existing incoming) := by
  have := total_compare hcompare
  have := trans_compare hcompare
  have hperm := List.perm_insertionSort (compare_messages locale_compare · · ≤ 0)
    (incoming.foldl merge_message existing)
  have hsorted := List.pairwise_insertionSort (compare_messages locale_compare · · ≤ 0)
    (incoming.foldl merge_message existing)
  obtain ⟨hloop, hlast⟩ := merging_foldl hexisting hincoming
  have hmerging := hloop.perm hperm
  have habsorbed := hlast.perm hperm
  have hagain := merge_again hsorted hmerging habsorbed
  refine ⟨hmerging.distinct, hsorted.imp ?_, hmerging.arrived, hmerging.settled,
    hmerging.taken_over, ?_, fun hflags => ?_⟩
  · intro a b hab
    unfold compare_messages at hab
    split at hab <;> omega
  · refine (congrArg (List.map hide) hagain).trans ?_
    rw [List.map_map]
    refine List.map_congr_left fun entry hentry => ?_
    obtain ⟨_, hrefresh, _⟩ := habsorbed.refresh hentry
    rw [Function.comp, hrefresh]
    rfl
  · refine hagain.trans ((List.map_congr_left fun entry hentry => ?_).trans (List.map_id _))
    obtain ⟨visible, hrefresh, hvisible⟩ := habsorbed.refresh hentry
    rw [hrefresh, hvisible hflags]
    rfl

end Law

section Examples

/-- The order of the code units, which is that of the ids of the server. -/
def compare_ids (a b : String) : Int := if a < b then -1 else if b < a then 1 else 0

theorem consistent_compare_ids : Consistent compare_ids := by
  have hle : ∀ a b, compare_ids a b ≤ 0 ↔ a ≤ b := by
    intro a b
    rw [← String.not_lt]
    unfold compare_ids
    split
    · rename_i hlt
      simp [String.lt_asymm hlt]
    · split <;> simp_all
  refine ⟨fun a b => ?_, fun a b c => ?_⟩
  · simp only [hle]
    exact String.le_total a b
  · simp only [hle]
    exact String.le_trans

def hello_sent : ConversationMessage := build_optimistic_message "5" "5" "7" "hello" "1" 1000

def hello_copy : ConversationMessage where
  id := "100"
  conv_id := "5"
  sender_id := "5"
  recipient_id := "7"
  content := "hello"
  timestamp_ms := 1500
  direction := .outgoing
  receipt_status := some .sent

theorem hello_is_merged :
    WellMerged compare_ids [hello_sent] [hello_copy]
      (merge_conversation_messages compare_ids [hello_sent] [hello_copy]) :=
  merging_keeps_the_list_well_formed consistent_compare_ids (by decide) (by decide)

/-- The copy with a flag that no message of the server has. -/
def flagged_copy : ConversationMessage := { hello_copy with pending_visible := true }

/-- The entry that is taken over loses the flag, and the second merge sets it. -/
theorem the_flag_comes_back :
    (ids [hello_sent]).Nodup ∧ (∀ m ∈ [flagged_copy], m.pending = false) ∧
      merge_conversation_messages compare_ids
          (merge_conversation_messages compare_ids [hello_sent] [flagged_copy]) [flagged_copy] ≠
        merge_conversation_messages compare_ids [hello_sent] [flagged_copy] := by
  decide

end Examples

/-! ## A message that the user sends -/

section Send

variable {locale_compare : String → String → Int} {l : List ConversationMessage}
  {message entry : ConversationMessage}

theorem perm_merge_one (locale_compare : String → String → Int) (l : List ConversationMessage)
    (message : ConversationMessage) :
    (merge_conversation_messages locale_compare l [message]).Perm (merge_message l message) :=
  List.perm_insertionSort _ _

theorem merge_message_of_new (hnew : message.id ∉ ids l)
    (hother : ∀ entry ∈ l, is_same_delivered_message entry message = false) :
    merge_message l message = l ++ [message] := by
  have hid : ¬ l.any (·.id = message.id) = true := fun hany => hnew (any_id_iff.mp hany)
  have hsame : ¬ l.any (is_same_delivered_message · message) = true := by
    simpa using hother
  unfold merge_message
  rw [if_neg hid, if_neg hsame]

/-- A match is written over, and the message is not pending any more. -/
theorem merge_message_of_match (hnew : message.id ∉ ids l) (hentry : entry ∈ l)
    (hsame : is_same_delivered_message entry message = true) :
    ∃ l₁ old l₂, l = l₁ ++ old :: l₂ ∧
      merge_message l message = l₁ ++ taken_over old message :: l₂ := by
  have hturn := turn_merge_message l message
  generalize merge_message l message = l' at hturn
  cases hturn with
  | updated l₁ old l₂ hid =>
    rw [ids_append, hid] at hnew
    exact absurd (by simp) hnew
  | taken_over l₁ old l₂ _ _ => exact ⟨l₁, old, l₂, rfl, rfl⟩
  | appended l _ hother =>
    rw [hother entry hentry] at hsame
    cases hsame

/-- All entries are there as they were, and the message. -/
def KeepsAll (locale_compare : String → String → Int) (l : List ConversationMessage)
    (message : ConversationMessage) : Prop :=
  (merge_conversation_messages locale_compare l [message]).Perm (l ++ [message])

/-- A message that was just written leaves the list as it was exactly when no entry is pending
with the same text for less than 15 seconds. -/
theorem sending_keeps_all_iff_no_entry_matches (locale_compare : String → String → Int)
    (l : List ConversationMessage) (conv_id sender_id recipient_id content drawn : String)
    (now : Int) (hnew : ∀ entry ∈ l,
      entry.id ≠ (build_optimistic_message conv_id sender_id recipient_id content drawn now).id) :
    KeepsAll locale_compare l
        (build_optimistic_message conv_id sender_id recipient_id content drawn now) ↔
      ∀ entry ∈ l, is_same_delivered_message entry
        (build_optimistic_message conv_id sender_id recipient_id content drawn now) = false := by
  have hpending : (build_optimistic_message conv_id sender_id recipient_id content drawn
    now).pending = true := rfl
  revert hnew hpending
  generalize build_optimistic_message conv_id sender_id recipient_id content drawn now = message
  intro hnew hpending
  have hid : message.id ∉ ids l := by
    intro hmem
    obtain ⟨entry, hentry, heq⟩ := List.mem_map.mp hmem
    exact hnew entry hentry heq
  constructor
  · intro hkeeps entry hentry
    rw [← Bool.not_eq_true]
    intro hsame
    obtain ⟨l₁, old, l₂, rfl, hmerge⟩ := merge_message_of_match hid hentry hsame
    have hperm := (perm_merge_one locale_compare _ message).symm.trans hkeeps
    rw [hmerge] at hperm
    have hmem : message ∈ l₁ ++ taken_over old message :: l₂ := hperm.mem_iff.mpr (by simp)
    rcases List.mem_append.mp hmem with hmem | hmem
    · exact hnew message (List.mem_append_left _ hmem) rfl
    · rcases List.mem_cons.mp hmem with heq | hmem
      · rw [heq] at hpending
        cases hpending
      · exact hnew message (by simp [hmem]) rfl
  · intro hother
    unfold KeepsAll
    exact (perm_merge_one locale_compare l message).trans
      (merge_message_of_new hid hother ▸ List.Perm.refl _)

/-- Another text is no match. -/
theorem another_text_is_kept :
    KeepsAll compare_ids [hello_sent] (build_optimistic_message "5" "5" "7" "bye" "2" 2000) :=
  (sending_keeps_all_iff_no_entry_matches compare_ids [hello_sent] "5" "5" "7" "bye" "2" 2000
    (by decide)).mpr (by decide)

/-- The same text a second later takes the first one's place. -/
theorem a_second_hello_swallows_the_first :
    ¬ KeepsAll compare_ids [hello_sent]
      (build_optimistic_message "5" "5" "7" "hello" "2" 2000) := by
  intro h
  have hlength := h.length_eq
  revert hlength
  decide

end Send

/-! ## The timer and the server's copy -/

/-- What the list shows. -/
def contents (l : List ConversationMessage) : List (String × String) :=
  l.map fun entry => (entry.id, entry.content)

/-- How often the message stands in the list, as the entry or as the copy. -/
def times (entry message : ConversationMessage) (l : List ConversationMessage) : Nat :=
  l.countP fun e => e.id = entry.id || e.id = message.id

/-- The timer may fire before the copy arrives or after it. -/
structure Commutes (locale_compare : String → String → Int) (l : List ConversationMessage)
    (entry message : ConversationMessage) : Prop where
  same : (contents (merge_conversation_messages locale_compare
      (settle_optimistic_message l entry.id) [message])).Perm
    (contents (settle_optimistic_message
      (merge_conversation_messages locale_compare l [message]) entry.id))
  once_settled : times entry message (merge_conversation_messages locale_compare
    (settle_optimistic_message l entry.id) [message]) = 1
  once_merged : times entry message (settle_optimistic_message
    (merge_conversation_messages locale_compare l [message]) entry.id) = 1

section Commutes

variable {locale_compare : String → String → Int} {l : List ConversationMessage}
  {message entry : ConversationMessage}

theorem ids_settle (l : List ConversationMessage) (id : String) :
    ids (settle_optimistic_message l id) = ids l := by
  unfold ids settle_optimistic_message
  rw [List.map_map]
  refine List.map_congr_left fun e _ => ?_
  simp only [Function.comp]
  split <;> rfl

/-- Once it is settled, the entry matches no copy. -/
theorem no_match_after_settle
    (honly : ∀ e ∈ l, is_same_delivered_message e message = true → e = entry) :
    ∀ e ∈ settle_optimistic_message l entry.id, is_same_delivered_message e message = false := by
  intro e he
  obtain ⟨old, hold, rfl⟩ := List.mem_map.mp he
  split
  · simp [is_same_delivered_message]
  · rename_i hid
    rw [← Bool.not_eq_true]
    exact fun hsame => hid (by rw [honly old hold hsame])

/-- The orders differ for every list: when the timer fires first, the copy is a second entry. -/
theorem the_timer_and_the_copy_never_commute (locale_compare : String → String → Int)
    (hentry : entry ∈ l) (hnew : message.id ∉ ids l)
    (hsame : is_same_delivered_message entry message = true)
    (honly : ∀ e ∈ l, is_same_delivered_message e message = true → e = entry) :
    ¬ Commutes locale_compare l entry message := by
  intro h
  have hlength := h.same.length_eq
  have hsettled : (merge_conversation_messages locale_compare
      (settle_optimistic_message l entry.id) [message]).length = l.length + 1 := by
    rw [(perm_merge_one _ _ _).length_eq, merge_message_of_new ((ids_settle l entry.id).symm ▸ hnew)
      (no_match_after_settle honly)]
    simp [settle_optimistic_message]
  have hmerged : (merge_conversation_messages locale_compare l [message]).length = l.length := by
    obtain ⟨l₁, old, l₂, rfl, hmerge⟩ := merge_message_of_match hnew hentry hsame
    rw [(perm_merge_one _ _ _).length_eq, hmerge]
    simp
  unfold contents settle_optimistic_message at hlength
  rw [List.length_map, List.length_map, List.length_map] at hlength
  unfold settle_optimistic_message at hsettled
  omega

theorem hello_does_not_commute : ¬ Commutes compare_ids [hello_sent] hello_sent hello_copy :=
  the_timer_and_the_copy_never_commute compare_ids (by decide) (by decide) (by decide) (by decide)

theorem hello_is_shown_twice : ¬ Commutes compare_ids [hello_sent] hello_sent hello_copy := by
  intro h
  have honce := h.once_settled
  revert honce
  decide

end Commutes

end loomic.message_merge
