-- What store and forward guarantees, and under which conditions on the moves:
-- that no message is lost, that no mailbox of a connected user fills up, that
-- the messages of a sender keep their order, and what a receipt is worth.
import Loomic.Lib.StoreForward

open machines

namespace store_forward

variable {U S I : Type*} [DecidableEq U] [DecidableEq S] {no : I → Nat} {sender : I → U}
  {x x' : Net U S I} {m : Move U S I}

/-- The session to which the next delivery of `s` would go. -/
def Net.target (x : Net U S I) (s : S) : Option S :=
  match x.sending s with
  | some (_, u :: _) => x.registry u
  | _ => none

omit [DecidableEq U] [DecidableEq S] in
theorem target_eq {s t : S} {i : I} {u : U} {us : List U} (hs : x.sending s = some (i, u :: us)) :
    x.target s = some t ↔ x.registry u = some t := by
  simp [Net.target, hs]

theorem routed_of_step (h : step no sender x m = some x') {i : I} {u : U}
    (hi : (i, u) ∈ x'.routed) : (i, u) ∈ x.routed ∨ Serves x m u i := by
  cases step_cases h with
  | @deliver s r j v vs t hs _ =>
    simp only [Net.served] at hi
    rw [reply_eq] at hi
    rcases List.mem_append.mp hi with hi | hi
    · exact .inl hi
    · obtain ⟨rfl, rfl⟩ := Prod.mk.inj (List.mem_singleton.mp hi)
      exact .inr ⟨s, vs, hs, .inr ⟨r, rfl⟩⟩
  | @store s j v vs hs =>
    rcases List.mem_append.mp hi with hi | hi
    · exact .inl hi
    · obtain ⟨rfl, rfl⟩ := Prod.mk.inj (List.mem_singleton.mp hi)
      exact .inr ⟨s, vs, hs, .inl rfl⟩
  | _ => exact .inl hi

theorem active_of_step (h : step no sender x m = some x') {t : S} (ht : x.active t) :
    x'.active t ∨ m = .close t := by
  cases step_cases h with
  | @close s =>
    by_cases hts : t = s
    · exact .inr (hts ▸ rfl)
    · exact .inl (by simpa [hts] using ht)
  | @deliver s r i u us t' _ _ =>
    left
    cases r <;> exact ht
  | _ => exact .inl ht

/-! ## No message is lost -/

/-- A message is safe for a user in his mailbox, at an active session that has it still to
write, or once it is written. -/
def Net.Safe (x : Net U S I) (u : U) (i : I) : Prop :=
  i ∈ x.mail u ∨ ∃ s, x.owner s = u ∧
    (x.active s ∧ .message i ∈ x.pending s ∨ .message i ∈ x.written s)

/-- A move that drops no message: the whole mailbox is flushed, a message is delivered to an
active session only, no message is being written when a write fails, and a session that
closes has none. -/
def Careful (x : Net U S I) : Move U S I → Prop
  | .flush s n => (x.offline (x.owner s)).length ≤ n
  | .deliver s _ => ∀ t ∈ x.target s, x.active t
  | .fail s => ∀ p ∈ x.in_flight s, p.message? = none
  | .close s => ∀ p ∈ x.pending s, p.message? = none
  | _ => True

theorem safe_of_served (hx : Sound x) (hok : Careful x m) (h : step no sender x m = some x')
    {u : U} {i : I} (hs : Serves x m u i) : x'.Safe u i := by
  obtain ⟨s, us, hs, rfl | ⟨r, rfl⟩⟩ := hs
  · cases step_cases h with
    | store hs' =>
      obtain ⟨rfl, hus⟩ := Prod.mk.inj (Option.some.inj (hs.symm.trans hs'))
      obtain ⟨rfl, rfl⟩ := List.cons.inj hus
      exact .inl (mem_mail.mpr (by simp [Net.served, Net.store]))
  · cases step_cases h with
    | @deliver _ _ j v vs t hs' ht =>
      obtain ⟨rfl, hus⟩ := Prod.mk.inj (Option.some.inj (hs.symm.trans hs'))
      obtain ⟨rfl, rfl⟩ := List.cons.inj hus
      have hact : x.active t := hok t ((target_eq hs).mpr ht)
      refine .inr ⟨t, ?_, .inl ⟨?_, ?_⟩⟩
      · rw [← hx.owner_eq u t ht]
        cases r <;> rfl
      · cases r <;> exact hact
      · rw [mem_pending]
        simp only [Net.served]
        rw [reply_eq]
        simp [mem_reply_posts, Net.post]

theorem safe_of_step (hx : Sound x) (hok : Careful x m) (h : step no sender x m = some x')
    {u : U} {i : I} (hs : x.Safe u i) : x'.Safe u i := by
  rcases hs with hi | ⟨t, ho, ⟨hact, hi⟩ | hi⟩
  · by_cases hi' : i ∈ x'.mail u
    · exact .inl hi'
    · obtain ⟨s, n, rfl, hu, ha, hs⟩ := flushed_of_step h hi hi'
      have hn : (x.offline u).length ≤ n := hu ▸ hok
      have ho : x'.owner s = x.owner s := (owner_of_step h s).resolve_right (by simp)
      refine .inr ⟨s, ho.trans hu, .inl ⟨?_, ?_⟩⟩
      · exact (active_of_step h ha).resolve_right (by simp)
      · exact mem_pending.mpr (.inr (.inl (hs.resolve_right (by omega))))
  · have ho' : x'.owner t = u := (owner_of_has hx h (.inl hi)).trans ho
    rcases pending_of_step h hi with hi' | hi' | ⟨rfl, hf, _⟩
    · rcases active_of_step h hact with ha | rfl
      · exact .inr ⟨t, ho', .inl ⟨ha, hi'⟩⟩
      · exact absurd (hok _ hi) (by simp [Packet.message?])
    · exact .inr ⟨t, ho', .inr hi'⟩
    · exact absurd (hok _ hf) (by simp [Packet.message?])
  · exact .inr ⟨t, (owner_of_has hx h (.inr (.inl hi))).trans ho, .inr (written_mono h hi)⟩

/-- In a run of careful moves every message that has been routed to a user is safe. -/
theorem routed_messages_are_safe {nobody : U} {ms : List (Move U S I)}
    (hok : (machine no sender nobody).Meets Careful ms)
    (hr : (machine no sender nobody).run ms = some x) {i : I} {u : U} (hi : (i, u) ∈ x.routed) :
    x.Safe u i := by
  have hinv : Sound x ∧ ∀ i u, (i, u) ∈ x.routed → x.Safe u i := by
    refine Machine.invariant_of_meets (I := fun x => Sound x ∧ ∀ i u, (i, u) ∈ x.routed →
      x.Safe u i) ⟨sound_start nobody, by simp [machine]⟩ ?_ hok hr
    rintro x m x' ⟨hx, hsafe⟩ hok h
    refine ⟨sound_step hx h, fun i u hi => ?_⟩
    rcases routed_of_step h hi with hi' | hi'
    · exact safe_of_step hx hok h (hsafe i u hi')
    · exact safe_of_served hx hok h hi'
  exact hinv.2 i u hi

/-! ## No mailbox of a connected user fills up -/

/-- The user's session in the registry has emptied his mailbox. -/
def Net.Connected (x : Net U S I) (u : U) : Prop := ∃ t ∈ x.registry u, x.stage t = .flushed

/-- Something is stored only as long as its recipient's session has not emptied the mailbox. -/
def Timely (x : Net U S I) : Move U S I → Prop
  | .store s => ∀ t ∈ x.target s, x.stage t ≠ .flushed
  | .store_notice u => ∀ t ∈ x.registry u, x.stage t ≠ .flushed
  | _ => True

theorem offline_empty_of_step (hx : Sound x) (hok : Timely x m) (h : step no sender x m = some x')
    (hall : ∀ u, x.Connected u → x.offline u = []) {u : U} (hu : x'.Connected u) :
    x'.offline u = [] := by
  obtain ⟨t, ht, hst⟩ := hu
  refine List.eq_nil_iff_forall_not_mem.mpr fun i hi => ?_
  have hreg : x.registry u = some t := by
    rcases registry_of_step h ht with hreg | rfl
    · exact hreg
    · cases step_cases h with
      | join _ => simp [Net.join] at hst
  by_cases hst' : x.stage t = .flushed
  · have hnil := hall u ⟨t, hreg, hst'⟩
    rcases offline_of_step h hi with hi' | ⟨s, j, us, hs, _, rfl⟩ | ⟨_, rfl⟩
    · simp [hnil] at hi'
    · exact hok t ((target_eq hs).mpr hreg) hst'
    · exact hok t hreg hst'
  · -- the session has just emptied the mailbox
    cases step_cases h with
    | @flush s n _ _ =>
      by_cases hts : t = s
      · subst hts
        simp [Net.flush, hx.owner_eq u t hreg] at hi
      · exact hst' (by simpa [Net.flush, hts] using hst)
    | @join s v hf =>
      have hts : t ≠ s := fun hts => hx.stage_ne u t hreg (hts ▸ hf)
      exact hst' (by simpa [Net.join, hts] using hst)
    | @deliver s r j v vs t' _ _ => exact hst' (by cases r <;> exact hst)
    | _ => exact hst' hst

/-- In a run of timely moves the mailbox of every connected user is empty. -/
theorem mailboxes_of_the_connected_are_empty {nobody : U} {ms : List (Move U S I)}
    (hok : (machine no sender nobody).Meets Timely ms)
    (hr : (machine no sender nobody).run ms = some x) {u : U} (hu : x.Connected u) :
    x.offline u = [] := by
  have hinv : Sound x ∧ ∀ u, x.Connected u → x.offline u = [] := by
    refine Machine.invariant_of_meets (I := fun x => Sound x ∧ ∀ u, x.Connected u →
      x.offline u = []) ⟨sound_start nobody, fun _ _ => rfl⟩ ?_ hok hr
    rintro x m x' ⟨hx, hall⟩ hok h
    exact ⟨sound_step hx h, fun u hu => offline_empty_of_step hx hok h hall hu⟩
  exact hinv.2 u hu

/-! ## Receipts -/

/-- A move that sends no receipt. -/
def Silent (_ : Net U S I) : Move U S I → Prop
  | .deliver _ r => r = .silent
  | _ => True

/-- A move that takes up no receipt for writing before its message has been written. -/
def Late (x : Net U S I) : Move U S I → Prop
  | .next s => ∀ i u, (x.queue s).head? = some (.receipt i u) →
      ∀ t, x.owner t = u → .message i ∉ x.pending t ∧ .message i ∉ x.lost t
  | _ => True

/-- A session of the user has written the message. -/
def Net.Reached (x : Net U S I) (u : U) (i : I) : Prop :=
  ∃ t, x.owner t = u ∧ .message i ∈ x.written t

/-- Every receipt that was sent is for a message that has reached its user. -/
def Net.Honest (x : Net U S I) : Prop := ∀ i u, (i, u) ∈ x.receipts → x.Reached u i

/-- A message that is being sent has a number of its own, and the users still to be served do
not hold it yet. -/
structure Numbered (no : I → Nat) (x : Net U S I) : Prop where
  held : ∀ u i, x.Held u i → no i < x.next_no
  sending : ∀ s i us, x.sending s = some (i, us) → no i < x.next_no
  one_sending : ∀ s s' i i' us us', x.sending s = some (i, us) → x.sending s' = some (i', us') →
    no i = no i' → s = s'
  unserved : ∀ s i us, x.sending s = some (i, us) → ∀ u ∈ us, ∀ j, x.Held u j → no j ≠ no i

theorem next_no_mono (h : step no sender x m = some x') : x.next_no ≤ x'.next_no := by
  cases step_cases h with
  | start_send _ _ _ _ _ => exact Nat.le_succ _
  | @deliver s r i u us t _ _ => cases r <;> exact Nat.le_refl _
  | _ => exact Nat.le_refl _

theorem sending_of_serves (h : step no sender x m = some x') {s : S} {i : I} {u : U} {us : List U}
    (hs : x.sending s = some (i, u :: us)) (hm : m = .store s ∨ ∃ r, m = .deliver s r) :
    x'.sending s = some (i, us) := by
  rcases hm with rfl | ⟨r, rfl⟩
  · cases step_cases h with
    | store hs' =>
      obtain ⟨rfl, hus⟩ := Prod.mk.inj (Option.some.inj (hs.symm.trans hs'))
      obtain ⟨rfl, rfl⟩ := List.cons.inj hus
      simp [Net.served]
  · cases step_cases h with
    | deliver hs' _ =>
      obtain ⟨rfl, hus⟩ := Prod.mk.inj (Option.some.inj (hs.symm.trans hs'))
      obtain ⟨rfl, rfl⟩ := List.cons.inj hus
      simp [Net.served]

/-- What is being sent after a move was being sent before, or has the next number. -/
theorem sent_of_step (h : step no sender x m = some x') {t : S} {i : I} {us : List U}
    (ht : x'.sending t = some (i, us)) :
    (∃ vs, x.sending t = some (i, vs) ∧ us.Sublist vs) ∨
      no i = x.next_no ∧ x'.next_no = x.next_no + 1 ∧ us.Nodup ∧ m = .start_send t i us := by
  rcases sending_of_step h ht with hs | ⟨u, hs, _⟩ | rfl
  · exact .inl ⟨us, hs, List.Sublist.refl us⟩
  · exact .inl ⟨u :: us, hs, List.sublist_cons_self u us⟩
  · cases step_cases h with
    | start_send _ _ hno _ hd => exact .inr ⟨hno, rfl, hd, rfl⟩

theorem numbered_step (hs : Sound x) (hx : Numbered no x) (h : step no sender x m = some x') :
    Numbered no x' where
  held := by
    intro u i hi
    refine Nat.lt_of_lt_of_le ?_ (next_no_mono h)
    rcases held_of_step hs h hi with hi | ⟨s, us, hsend, _⟩
    · exact hx.held u i hi
    · exact hx.sending s i _ hsend
  sending := by
    intro s i us hsend
    rcases sent_of_step h hsend with ⟨vs, hsend, _⟩ | ⟨hno, hnext, _⟩
    · exact Nat.lt_of_lt_of_le (hx.sending s i vs hsend) (next_no_mono h)
    · omega
  one_sending := by
    intro s s' i i' us us' hsend hsend' hno
    rcases sent_of_step h hsend with ⟨vs, hold, _⟩ | ⟨hnew, _, _, rfl⟩
    · rcases sent_of_step h hsend' with ⟨vs', hold', _⟩ | ⟨hnew', _⟩
      · exact hx.one_sending s s' i i' vs vs' hold hold' hno
      · have hlt := hx.sending s i vs hold
        omega
    · rcases sent_of_step h hsend' with ⟨vs', hold', _⟩ | ⟨_, _, _, hm⟩
      · have hlt := hx.sending s' i' vs' hold'
        omega
      · injection hm
  unserved := by
    intro s i us hsend u hu j hj hno
    rcases held_of_step hs h hj with hj | ⟨s', us', hsend', hm⟩
    · rcases sent_of_step h hsend with ⟨vs, hold, hsub⟩ | ⟨hnew, _⟩
      · exact hx.unserved s i vs hold u (hsub.subset hu) j hj hno
      · have hlt := hx.held u j hj
        omega
    · -- the message is served by the session that sends it, which then no longer sends it to `u`
      have hafter := sending_of_serves h hsend' hm
      rcases sent_of_step h hsend with ⟨vs, hold, _⟩ | ⟨hnew, _⟩
      · obtain rfl := hx.one_sending s s' i j vs _ hold hsend' hno.symm
        obtain ⟨rfl, rfl⟩ := Prod.mk.inj (Option.some.inj (hsend.symm.trans hafter))
        exact (List.nodup_cons.mp (hs.nodup s i _ hsend')).1 hu
      · have hlt := hx.sending s' j _ hsend'
        omega

theorem numbered_start (nobody : U) :
    Numbered no (machine no sender nobody : Machine (Net U S I) (Move U S I)).start where
  held := by simp [machine, Net.Held, Net.Has, Net.pending, Net.mail]
  sending := by simp [machine]
  one_sending := by simp [machine]
  unserved := by simp [machine]

theorem receipts_mono (h : step no sender x m = some x') {y : I × U} (hy : y ∈ x.receipts) :
    y ∈ x'.receipts := by
  cases step_cases h with
  | @deliver s r i u us t _ _ =>
    cases r with
    | silent => exact hy
    | post t' => exact List.mem_append_left _ hy
    | push => exact List.mem_append_left _ hy
  | _ => exact hy

theorem receipts_of_silent (hok : Silent x m) (h : step no sender x m = some x') :
    x'.receipts = x.receipts := by
  cases step_cases h with
  | @deliver s r i u us t _ _ =>
    obtain rfl : r = .silent := hok
    rfl
  | _ => rfl

/-- A move other than the end of a write adds nothing to what is written. -/
theorem written_of_step (h : step no sender x m = some x') (hm : ∀ s, m ≠ .wrote s) {t : S} :
    x'.written t = x.written t := by
  cases step_cases h with
  | @deliver s r i u us t' _ _ => cases r <;> rfl
  | wrote _ => exact absurd rfl (hm _)
  | _ => rfl

theorem reached_of_step (hs : Sound x) (h : step no sender x m = some x')
    (hm : ∀ s, m ≠ .wrote s) {u : U} {i : I} (hi : x'.Reached u i) : x.Reached u i := by
  obtain ⟨t, ho, hi⟩ := hi
  rw [written_of_step h hm] at hi
  exact ⟨t, (owner_of_has hs h (.inr (.inl hi))).symm.trans ho, hi⟩

/-- A receipt is sent before its message is written: a run without the end of a write sends no
receipt, if all receipts are honest after it. -/
theorem silent_of_honest {nobody : U} {ms : List (Move U S I)} (hs : Sound x)
    (hx : Numbered no x) (hm : ∀ m ∈ ms, ∀ s, m ≠ .wrote s)
    (hr : (machine no sender nobody).runFrom x ms = some x') (hh : x'.Honest) :
    (machine no sender nobody).MeetsFrom Silent x ms := by
  -- what the receipts after the run say was so before it
  suffices hmeets : ∀ x, Sound x → Numbered no x →
      (machine no sender nobody).runFrom x ms = some x' →
      (∀ i u, (i, u) ∈ x.receipts → x.Reached u i) ∧
        (machine no sender nobody).MeetsFrom Silent x ms from (hmeets x hs hx hr).2
  clear hs hx hr
  induction ms with
  | nil =>
    intro x _ _ hr
    obtain rfl : x = x' := Option.some.inj hr
    exact ⟨hh, trivial⟩
  | cons m ms ih =>
    intro x hs hx hr
    obtain ⟨y, h, hr⟩ := Option.bind_eq_some_iff.mp hr
    change step no sender x m = some y at h
    obtain ⟨hback, hmeets⟩ := ih (fun m hm' => hm m (List.mem_cons_of_mem _ hm')) y
      (sound_step hs h) (numbered_step hs hx h) hr
    have hmw := hm m List.mem_cons_self
    refine ⟨fun i u hi => reached_of_step hs h hmw (hback i u (receipts_mono h hi)), ?_, ?_⟩
    · cases m with
      | deliver s r =>
        by_contra hne
        cases step_cases h with
        | @deliver _ _ i u us t hsend ht =>
          have hmem :
              (i, u) ∈ (((x.post t (.message i)).reply s i u r).served s i u us).receipts := by
            cases r with
            | silent => exact absurd rfl hne
            | post t' => simp [Net.served, Net.reply]
            | push => simp [Net.served, Net.reply]
          obtain ⟨t', ho, hi⟩ := reached_of_step hs h hmw (hback i u hmem)
          exact hx.unserved s i _ hsend u List.mem_cons_self i (.inr ⟨t', ho, .inr (.inl hi)⟩) rfl
      | _ => trivial
    · intro z hz
      obtain rfl : y = z := Option.some.inj (h.symm.trans hz)
      exact hmeets

/-- What was sent as a receipt is for a message that a session of the user has. One that is
taken up for writing, or written, is for a message that has reached the user. -/
structure Trailing (x : Net U S I) : Prop where
  has : ∀ t i u, x.Has t (.receipt i u) → ∃ s, x.owner s = u ∧ x.Has s (.message i)
  reached : ∀ t i u, x.in_flight t = some (.receipt i u) ∨ .receipt i u ∈ x.written t →
    x.Reached u i

theorem reached_mono (hs : Sound x) (h : step no sender x m = some x') {u : U} {i : I}
    (hi : x.Reached u i) : x'.Reached u i := by
  obtain ⟨t, ho, hi⟩ := hi
  exact ⟨t, (owner_of_has hs h (.inr (.inl hi))).trans ho, written_mono h hi⟩

theorem in_flight_of_step (h : step no sender x m = some x') {t : S} {p : Packet U I}
    (hp : x'.in_flight t = some p) :
    x.in_flight t = some p ∨ m = .next t ∧ (x.queue t).head? = some p := by
  cases step_cases h with
  | @deliver s r i u us t' _ _ =>
    left
    cases r <;> exact hp
  | @next s q qs _ hq =>
    simp only [Net.next, Function.update_apply] at hp
    split at hp
    · rename_i hts
      subst hts
      exact .inr ⟨rfl, by simpa [hq] using hp⟩
    · exact .inl hp
  | @wrote s q _ =>
    simp only [Net.wrote, Function.update_apply] at hp
    split at hp
    · simp at hp
    · exact .inl hp
  | @fail s q _ =>
    simp only [Net.fail, Function.update_apply] at hp
    split at hp
    · simp at hp
    · exact .inl hp
  | _ => exact .inl hp

theorem written_cases (h : step no sender x m = some x') {t : S} {p : Packet U I}
    (hp : p ∈ x'.written t) : p ∈ x.written t ∨ x.in_flight t = some p := by
  by_cases hm : ∀ s, m ≠ .wrote s
  · exact .inl (written_of_step h hm ▸ hp)
  · simp only [ne_eq, not_forall, not_not] at hm
    obtain ⟨s, rfl⟩ := hm
    cases step_cases h with
    | wrote hf =>
      rcases mem_append_at.mp hp with hold | ⟨rfl, hnew⟩
      · exact .inl hold
      · exact .inr (List.mem_singleton.mp hnew ▸ hf)

theorem trailing_step (hs : Sound x) (hx : Trailing x) (hok : Late x m)
    (h : step no sender x m = some x') : Trailing x' where
  has := by
    intro t i u hi
    rcases gets_of_has h hi with hi | hi
    · obtain ⟨s, ho, hi⟩ := hx.has t i u hi
      exact ⟨s, (owner_of_has hs h hi).trans ho, has_mono h hi⟩
    · cases hi with
      | @receipt s r _ _ us hsend _ =>
        cases step_cases h with
        | @deliver _ _ j v vs t' hsend' ht' =>
          obtain ⟨rfl, hus⟩ := Prod.mk.inj (Option.some.inj (hsend.symm.trans hsend'))
          obtain ⟨rfl, rfl⟩ := List.cons.inj hus
          refine ⟨t', ?_, .inl (mem_pending.mpr (.inl ?_))⟩
          · rw [← hs.owner_eq _ t' ht']
            cases r <;> rfl
          · simp only [Net.served]
            exact mem_reply_posts.mpr (.inl (by simp [Net.post]))
  reached := by
    intro t i u hi
    have hnext : ∀ {t}, x'.in_flight t = some (.receipt i u) → x'.Reached u i := by
      intro t hf
      rcases in_flight_of_step h hf with hf | ⟨rfl, hq⟩
      · exact reached_mono hs h (hx.reached t i u (.inl hf))
      · have hhas : x.Has t (.receipt i u) :=
          .inl (mem_pending.mpr (.inr (.inl (List.mem_of_head? hq))))
        obtain ⟨s, ho, hi⟩ := hx.has t i u hhas
        obtain ⟨hp, hl⟩ := hok i u hq s ho
        rcases hi with hi | hi | hi
        · exact absurd hi hp
        · exact reached_mono hs h ⟨s, ho, hi⟩
        · exact absurd hi hl
    rcases hi with hf | hw
    · exact hnext hf
    · rcases written_cases h hw with hw | hf
      · exact reached_mono hs h (hx.reached t i u (.inr hw))
      · exact reached_mono hs h (hx.reached t i u (.inl hf))

/-- In a run that takes up receipts late enough, every receipt that is written is for a message
that has reached the user. -/
theorem written_receipts_are_honest {nobody : U} {ms : List (Move U S I)}
    (hok : (machine no sender nobody).Meets Late ms)
    (hr : (machine no sender nobody).run ms = some x) {t : S} {i : I} {u : U}
    (hi : .receipt i u ∈ x.written t) : x.Reached u i := by
  have hinv : Sound x ∧ Trailing x := by
    refine Machine.invariant_of_meets (I := fun x => Sound x ∧ Trailing x)
      ⟨sound_start nobody, ?_⟩ ?_ hok hr
    · exact ⟨by simp [machine, Net.Has, Net.pending], by simp [machine]⟩
    · rintro x m x' ⟨hs, hx⟩ hok h
      exact ⟨sound_step hs h, trailing_step hs hx hok h⟩
  exact hinv.2.reached t i u (.inr hi)

end store_forward
