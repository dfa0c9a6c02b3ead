-- The order of the messages of one sender to one user in store and forward:
-- which moves keep it on the way from the sender, through the mailbox or the
-- posts of a session, to a queue.
import Loomic.Lib.StoreForward

open machines

namespace store_forward

variable {U S I : Type*} [DecidableEq U] [DecidableEq S] {no : I → Nat} {sender : I → U}
  {x x' : Net U S I} {m : Move U S I}

/-! ## The places on the way -/

/-- The messages in the posts of a session. -/
def Net.posted (x : Net U S I) (t : S) : List I := (x.posts t).filterMap Packet.message?

/-- The places on the way of a message to a user, from the last to the first: it was put on a
queue, it is posted to a session of the user, it is in the mailbox, it is being sent. -/
def Net.At (x : Net U S I) (u : U) : Nat → I → Prop
  | 0, i => (u, i) ∈ x.puts
  | 1, i => ∃ t, x.owner t = u ∧ i ∈ x.posted t
  | 2, i => i ∈ x.mail u
  | 3, i => ∃ s us, x.sending s = some (i, us) ∧ u ∈ us
  | _, _ => False

def Before (no : I → Nat) (sender : I → U) (i j : I) : Prop := sender i = sender j → no i < no j

/-- The messages of a sender to a user are in order at each place, and those that are further
on the way were sent before. Only one session has some of them posted, and only one sends. -/
structure InOrder (no : I → Nat) (sender : I → U) (x : Net U S I) : Prop where
  puts : x.puts.Pairwise fun p q => p.1 = q.1 → Before no sender p.2 q.2
  posted : ∀ t, (x.posted t).Pairwise (Before no sender)
  offline : ∀ u, (x.mail u).Pairwise fun j i => Before no sender i j
  cross : ∀ u a b i j, a < b → x.At u a i → x.At u b j → Before no sender i j
  bound : ∀ u a i, x.At u a i → no i < x.next_no
  one_session : ∀ t t' i j, x.owner t = x.owner t' → i ∈ x.posted t → j ∈ x.posted t' →
    sender i = sender j → t = t'
  one_sending : ∀ s s' i i' us us', x.sending s = some (i, us) → x.sending s' = some (i', us') →
    sender i = sender i' → ∀ u ∈ us, u ∈ us' → s = s'

/-- A move that lets no message of a sender to a user overtake another. A message is sent
while no other one is being sent to the same user; it is posted while none is in the mailbox or
posted to another session; and a mailbox is emptied while none of its senders' messages is
posted. -/
def Orderly (sender : I → U) (x : Net U S I) : Move U S I → Prop
  | .start_send _ i us => ∀ s, ∀ y ∈ x.sending s, sender y.1 = sender i → ∀ u ∈ us, u ∉ y.2
  | .deliver s _ => ∀ y ∈ x.sending s, ∀ u ∈ y.2.head?,
      (∀ j ∈ x.mail u, sender j ≠ sender y.1) ∧
      ∀ t, x.owner t = u → x.registry u ≠ some t → ∀ j ∈ x.posted t, sender j ≠ sender y.1
  | .flush s _ => ∀ j ∈ x.mail (x.owner s), ∀ t, x.owner t = x.owner s →
      ∀ i ∈ x.posted t, sender i ≠ sender j
  | _ => True

section Places

omit [DecidableEq U] [DecidableEq S] in
theorem at_le_three {u : U} {a : Nat} {i : I} (h : x.At u a i) : a ≤ 3 := by
  by_contra hlt
  obtain ⟨k, rfl⟩ : ∃ k, a = k + 4 := ⟨a - 4, by omega⟩
  exact False.elim h

omit [DecidableEq U] [DecidableEq S] in
theorem mem_posted {t : S} {i : I} : i ∈ x.posted t ↔ .message i ∈ x.posts t := by
  unfold Net.posted
  rw [List.mem_filterMap]
  constructor
  · rintro ⟨p, hp, hpi⟩
    cases p <;> simp_all [Packet.message?]
  · exact fun h => ⟨_, h, rfl⟩

omit [DecidableEq U] in
theorem posted_post (t t' : S) (p : Packet U I) : (x.post t p).posted t' =
    if t' = t then x.posted t' ++ p.message?.toList else x.posted t' := by
  unfold Net.posted Net.post
  simp only [append_at_apply]
  split
  · cases p <;> simp [Packet.message?]
  · rfl

omit [DecidableEq U] in
theorem posted_reply (s t : S) (i : I) (u : U) (r : Reply S) :
    (x.reply s i u r).posted t = x.posted t := by
  cases r with
  | post t' =>
    change (x.post t' (.receipt i u)).posted t = _
    rw [posted_post]
    simp [Packet.message?]
  | _ => rfl

omit [DecidableEq U] in
theorem posted_take {s t : S} {p : Packet U I} {ps : List (Packet U I)} (h : x.posts s = p :: ps) :
    x.posted t = if t = s then p.message?.toList ++ (x.take s p ps).posted t
      else (x.take s p ps).posted t := by
  by_cases hts : t = s
  · subst hts
    rw [if_pos rfl]
    unfold Net.posted
    rw [h]
    cases p <;> simp only [Net.take, Function.update_self, Packet.message?, List.filterMap_cons,
      Option.toList_some, Option.toList_none, List.singleton_append, List.nil_append]
  · simp [Net.posted, Net.take, hts]

omit [DecidableEq U] in
/-- The message that a session sends is no longer sent to the user who has been served. -/
theorem at_served (hs : Sound x) (hx : InOrder no sender x) {s : S} {i : I} {u : U} {us : List U}
    (hsend : x.sending s = some (i, u :: us)) {y : Net U S I} (hy : y.sending = x.sending)
    {v : U} {j : I} (h : (y.served s i u us).At v 3 j) :
    x.At v 3 j ∧ ¬ (v = u ∧ 3 = 3 ∧ sender j = sender i) := by
  obtain ⟨s', us', hs', hv⟩ := h
  simp only [Net.served, hy, Function.update_apply] at hs'
  split at hs'
  · rename_i hss
    subst hss
    obtain ⟨rfl, rfl⟩ := Prod.mk.inj (Option.some.inj hs')
    refine ⟨⟨s', _, hsend, List.mem_cons_of_mem u hv⟩, ?_⟩
    rintro ⟨rfl, _⟩
    exact (List.nodup_cons.mp (hs.nodup s' i _ hsend)).1 hv
  · rename_i hss
    refine ⟨⟨s', us', hs', hv⟩, ?_⟩
    rintro ⟨rfl, _, hse⟩
    exact hss (hx.one_sending s' s j i us' _ hs' hsend hse v hv List.mem_cons_self)

theorem at_store (hs : Sound x) (hx : InOrder no sender x) {s : S} {i : I} {u : U} {us : List U}
    (hsend : x.sending s = some (i, u :: us)) {v : U} {a : Nat} {j : I}
    (h : ((x.store u (.message i)).served s i u us).At v a j) :
    x.At v a j ∧ ¬ (v = u ∧ a = 3 ∧ sender j = sender i) ∨ v = u ∧ a = 2 ∧ j = i := by
  match a with
  | 0 => exact .inl ⟨h, by simp⟩
  | 1 => exact .inl ⟨h, by simp⟩
  | 2 =>
    replace h : j ∈ (x.store u (.message i)).mail v := h
    rw [mail_store] at h
    split at h
    · rename_i huv
      rcases List.mem_cons.mp h with rfl | h
      · exact .inr ⟨huv, rfl, rfl⟩
      · exact .inl ⟨huv ▸ h, by simp⟩
    · exact .inl ⟨h, by simp⟩
  | 3 => exact .inl (at_served hs hx hsend rfl h)

omit [DecidableEq U] in
theorem at_deliver (hs : Sound x) (hx : InOrder no sender x) {s t : S} {i : I} {u : U}
    {us : List U} {r : Reply S} (hsend : x.sending s = some (i, u :: us))
    (ht : x.registry u = some t) {v : U} {a : Nat} {j : I}
    (h : (((x.post t (.message i)).reply s i u r).served s i u us).At v a j) :
    x.At v a j ∧ ¬ (v = u ∧ a = 3 ∧ sender j = sender i) ∨ v = u ∧ a = 1 ∧ j = i := by
  match a with
  | 0 =>
    left
    simp only [Net.At, Net.served] at h ⊢
    rw [reply_eq] at h
    exact ⟨h, by simp⟩
  | 1 =>
    obtain ⟨t', ho, hj⟩ := h
    simp only [Net.served] at ho
    rw [reply_eq] at ho
    change j ∈ ((x.post t (.message i)).reply s i u r).posted t' at hj
    rw [posted_reply, posted_post] at hj
    split at hj
    · rename_i htt
      subst htt
      rcases List.mem_append.mp hj with hj | hj
      · exact .inl ⟨⟨t', ho, hj⟩, by simp⟩
      · exact .inr ⟨ho.symm.trans (hs.owner_eq u t' ht), rfl, List.mem_singleton.mp hj⟩
    · exact .inl ⟨⟨t', ho, hj⟩, by simp⟩
  | 2 =>
    left
    simp only [Net.At, Net.served] at h ⊢
    rw [reply_eq] at h
    exact ⟨h, by simp⟩
  | 3 =>
    refine .inl (at_served hs hx hsend ?_ h)
    rw [reply_eq]
    rfl

end Places

/-! ## The moves -/

omit [DecidableEq U] [DecidableEq S] in
/-- A message that is served moves on to a place that none of the sender's messages is before. -/
theorem cross_of_served (hx : InOrder no sender x) {u : U} {i : I} {dst : Nat} (hdst : dst < 3)
    (hi : x.At u 3 i)
    (hat : ∀ {v a j}, x'.At v a j →
      x.At v a j ∧ ¬ (v = u ∧ a = 3 ∧ sender j = sender i) ∨ v = u ∧ a = dst ∧ j = i)
    (hempty : ∀ a j, dst < a → a < 3 → x.At u a j → sender j ≠ sender i)
    (v : U) (a b : Nat) (p q : I) (hab : a < b) (hp : x'.At v a p) (hq : x'.At v b q) :
    Before no sender p q := by
  rcases hat hp with ⟨hp, _⟩ | ⟨rfl, rfl, rfl⟩
  · rcases hat hq with ⟨hq, _⟩ | ⟨rfl, rfl, rfl⟩
    · exact hx.cross v a b p q hab hp hq
    · exact hx.cross v a 3 p q (by omega) hp hi
  · rcases hat hq with ⟨hq, hne⟩ | ⟨_, rfl, _⟩
    · intro hse
      rcases Nat.lt_trichotomy b 3 with hb | rfl | hb
      · exact absurd hse.symm (hempty b q hab hb hq)
      · exact absurd ⟨rfl, rfl, hse.symm⟩ hne
      · exact absurd (at_le_three hq) (by omega)
    · omega

omit [DecidableEq U] in
theorem one_sending_served (hx : InOrder no sender x) {s : S} {i : I} {u : U} {us : List U}
    (hsend : x.sending s = some (i, u :: us)) (s₁ s₂ : S) (i₁ i₂ : I) (us₁ us₂ : List U)
    (h₁ : Function.update x.sending s (some (i, us)) s₁ = some (i₁, us₁))
    (h₂ : Function.update x.sending s (some (i, us)) s₂ = some (i₂, us₂))
    (hse : sender i₁ = sender i₂) (v : U) (hv₁ : v ∈ us₁) (hv₂ : v ∈ us₂) : s₁ = s₂ := by
  have hold : ∀ s' i' us', Function.update x.sending s (some (i, us)) s' = some (i', us') →
      v ∈ us' → ∃ vs, x.sending s' = some (i', vs) ∧ v ∈ vs := by
    intro s' i' us' h hv
    rw [Function.update_apply] at h
    split at h
    · rename_i hss
      obtain ⟨rfl, rfl⟩ := Prod.mk.inj (Option.some.inj h)
      exact ⟨_, hss ▸ hsend, List.mem_cons_of_mem u hv⟩
    · exact ⟨us', h, hv⟩
  obtain ⟨vs₁, h₁, hv₁⟩ := hold s₁ i₁ us₁ h₁ hv₁
  obtain ⟨vs₂, h₂, hv₂⟩ := hold s₂ i₂ us₂ h₂ hv₂
  exact hx.one_sending s₁ s₂ i₁ i₂ vs₁ vs₂ h₁ h₂ hse v hv₁ hv₂

theorem in_order_store (hs : Sound x) (hx : InOrder no sender x) {s : S} {i : I} {u : U}
    {us : List U} (hsend : x.sending s = some (i, u :: us)) :
    InOrder no sender ((x.store u (.message i)).served s i u us) := by
  have hi : x.At u 3 i := ⟨s, _, hsend, List.mem_cons_self⟩
  have hat : ∀ {v a j}, ((x.store u (.message i)).served s i u us).At v a j → _ :=
    at_store hs hx hsend
  refine ⟨hx.puts, hx.posted, ?_, ?_, ?_, hx.one_session, ?_⟩
  · intro v
    change List.Pairwise _ ((x.store u (.message i)).mail v)
    rw [mail_store]
    split_ifs with hv
    · subst hv
      refine List.pairwise_cons.mpr ⟨fun j hj => ?_, hx.offline v⟩
      exact hx.cross v 2 3 j i (by omega) hj hi
    · exact hx.offline v
  · exact cross_of_served hx (by omega) hi hat fun a j h₁ h₂ => absurd h₂ (by omega)
  · intro v a j hj
    rcases hat hj with ⟨hj, _⟩ | ⟨_, _, rfl⟩
    · exact hx.bound v a j hj
    · exact hx.bound u 3 j hi
  · exact one_sending_served hx hsend

omit [DecidableEq U] in
theorem in_order_deliver (hs : Sound x) (hx : InOrder no sender x) {s t : S} {i : I} {u : U}
    {us : List U} {r : Reply S} (hsend : x.sending s = some (i, u :: us))
    (ht : x.registry u = some t) (hok : Orderly sender x (.deliver s r)) :
    InOrder no sender (((x.post t (.message i)).reply s i u r).served s i u us) := by
  obtain ⟨hoff, helse⟩ := hok _ hsend u rfl
  have hi : x.At u 3 i := ⟨s, _, hsend, List.mem_cons_self⟩
  have hat : ∀ {v a j}, (((x.post t (.message i)).reply s i u r).served s i u us).At v a j → _ :=
    at_deliver hs hx hsend ht
  have hposted : ∀ t', (((x.post t (.message i)).reply s i u r).served s i u us).posted t' =
      if t' = t then x.posted t' ++ [i] else x.posted t' := fun t' =>
    (posted_reply s t' i u r).trans (posted_post t t' (.message i))
  refine ⟨?_, ?_, ?_, ?_, ?_, ?_, ?_⟩
  · simp only [Net.served]
    rw [reply_eq]
    exact hx.puts
  · intro t'
    rw [hposted]
    split
    · rename_i htt
      subst htt
      refine List.pairwise_append.mpr ⟨hx.posted t', List.pairwise_singleton _ _, ?_⟩
      intro j hj k hk
      rw [List.mem_singleton.mp hk]
      exact hx.cross u 1 3 j i (by omega) ⟨t', hs.owner_eq u t' ht, hj⟩ hi
    · exact hx.posted t'
  · simp only [Net.served]
    rw [reply_eq]
    exact hx.offline
  · refine cross_of_served hx (by omega) hi hat fun a j h₁ h₂ hj => ?_
    obtain rfl : a = 2 := by omega
    exact hoff j hj
  · intro v a j hj
    have hno : (((x.post t (.message i)).reply s i u r).served s i u us).next_no = x.next_no := by
      cases r <;> rfl
    rw [hno]
    rcases hat hj with ⟨hj, _⟩ | ⟨_, _, rfl⟩
    · exact hx.bound v a j hj
    · exact hx.bound u 3 j hi
  · intro t₁ t₂ j k ho hj hk hse
    -- the session to which the message is posted is the only one with the sender's messages
    have honly : ∀ t' l, x.owner t' = u → l ∈ x.posted t' → sender l = sender i → t' = t := by
      intro t' l ho' hl hse'
      by_contra htt
      exact helse t' ho' (fun h => htt (Option.some.inj (h.symm.trans ht))) l hl hse'
    have hot : x.owner t = u := hs.owner_eq u t ht
    have ho' : x.owner t₁ = x.owner t₂ := by
      cases r <;> exact ho
    rw [hposted] at hj hk
    have hcase : ∀ t' l, l ∈ (if t' = t then x.posted t' ++ [i] else x.posted t') →
        l ∈ x.posted t' ∨ t' = t ∧ l = i := by
      intro t' l hl
      split at hl
      · rename_i htt
        exact (List.mem_append.mp hl).imp id fun h => ⟨htt, List.mem_singleton.mp h⟩
      · exact .inl hl
    rcases hcase t₁ j hj with hj₁ | ⟨ht₁, hj₁⟩
    · rcases hcase t₂ k hk with hk₂ | ⟨ht₂, hk₂⟩
      · exact hx.one_session t₁ t₂ j k ho' hj₁ hk₂ hse
      · exact (honly t₁ j (ho'.trans (ht₂ ▸ hot)) hj₁ (hk₂ ▸ hse)).trans ht₂.symm
    · rcases hcase t₂ k hk with hk₂ | ⟨ht₂, _⟩
      · exact ht₁.trans (honly t₂ k (ho'.symm.trans (ht₁ ▸ hot)) hk₂ (hj₁ ▸ hse.symm)).symm
      · exact ht₁.trans ht₂.symm
  · have hsending : (((x.post t (.message i)).reply s i u r).served s i u us).sending =
        Function.update x.sending s (some (i, us)) := by
      cases r <;> rfl
    rw [hsending]
    exact one_sending_served hx hsend

omit [DecidableEq U] in
theorem in_order_start_send (hx : InOrder no sender x) {s : S} {i : I} {us : List U}
    (hno : no i = x.next_no)
    (hok : Orderly sender x (.start_send s i us)) : InOrder no sender (x.start_send s i us) := by
  have hat : ∀ {v a j}, (x.start_send s i us).At v a j → x.At v a j ∨ a = 3 ∧ j = i := by
    intro v a j h
    match a with
    | 0 => exact .inl h
    | 1 => exact .inl h
    | 2 => exact .inl h
    | 3 =>
      obtain ⟨s', us', hs', hv⟩ := h
      simp only [Net.start_send, Function.update_apply] at hs'
      split at hs'
      · exact .inr ⟨rfl, (Prod.mk.inj (Option.some.inj hs')).1.symm⟩
      · exact .inl ⟨s', us', hs', hv⟩
  refine ⟨hx.puts, hx.posted, hx.offline, ?_, ?_, hx.one_session, ?_⟩
  · intro v a b p q hab hp hq hse
    rcases hat hp with hp' | ⟨rfl, _⟩
    · rcases hat hq with hq' | ⟨_, rfl⟩
      · exact hx.cross v a b p q hab hp' hq' hse
      · have hbound := hx.bound v a p hp'
        omega
    · exact absurd (at_le_three hq) (by omega)
  · intro v a j hj
    change no j < x.next_no + 1
    rcases hat hj with hj | ⟨_, rfl⟩
    · exact Nat.lt_succ_of_lt (hx.bound v a j hj)
    · omega
  · intro s₁ s₂ i₁ i₂ us₁ us₂ h₁ h₂ hse v hv₁ hv₂
    simp only [Net.start_send, Function.update_apply] at h₁ h₂
    split at h₁ <;> rename_i hs₁
    · obtain ⟨rfl, rfl⟩ := Prod.mk.inj (Option.some.inj h₁)
      split at h₂ <;> rename_i hs₂
      · exact hs₁.trans hs₂.symm
      · exact absurd hv₂ (hok s₂ _ h₂ hse.symm v hv₁)
    · split at h₂ <;> rename_i hs₂
      · obtain ⟨rfl, rfl⟩ := Prod.mk.inj (Option.some.inj h₂)
        exact absurd hv₁ (hok s₁ _ h₁ hse v hv₂)
      · exact hx.one_sending s₁ s₂ i₁ i₂ us₁ us₂ h₁ h₂ hse v hv₁ hv₂

omit [DecidableEq U] in
/-- A post that is run puts its message behind all others of the sender. -/
theorem in_order_take (hx : InOrder no sender x) {s : S} {p : Packet U I}
    {ps : List (Packet U I)} (hp : x.posts s = p :: ps) : InOrder no sender (x.take s p ps) := by
  have hposted : ∀ t i, i ∈ (x.take s p ps).posted t → i ∈ x.posted t := by
    intro t i hi
    rw [posted_take hp]
    split
    · exact List.mem_append_right _ hi
    · exact hi
  have hhead : ∀ i, p = .message i → i ∈ x.posted s ∧
      ∀ j ∈ (x.take s p ps).posted s, Before no sender i j := by
    rintro i rfl
    have hsorted := hx.posted s
    rw [posted_take hp, if_pos rfl] at hsorted ⊢
    exact ⟨List.mem_cons_self, (List.pairwise_cons.mp hsorted).1⟩
  have hat : ∀ {v a j}, (x.take s p ps).At v a j →
      x.At v a j ∨ a = 0 ∧ v = x.owner s ∧ p = .message j := by
    intro v a j h
    match a with
    | 0 =>
      rcases List.mem_append.mp h with h | h
      · exact .inl h
      · cases p with
        | message i =>
          obtain ⟨rfl, rfl⟩ := Prod.mk.inj (List.mem_singleton.mp h)
          exact .inr ⟨rfl, rfl, rfl⟩
        | _ => simp [Packet.message?] at h
    | 1 =>
      obtain ⟨t, ho, hj⟩ := h
      exact .inl ⟨t, ho, hposted t j hj⟩
    | 2 => exact .inl h
    | 3 => exact .inl h
  refine ⟨?_, ?_, hx.offline, ?_, ?_, ?_, hx.one_sending⟩
  · cases p with
    | message i =>
      refine List.pairwise_append.mpr ⟨hx.puts, List.pairwise_singleton _ _, ?_⟩
      rintro ⟨v, j⟩ hj _ hi hv
      rw [List.mem_singleton.mp hi] at hv ⊢
      exact hx.cross v 0 1 j i (by omega) hj ⟨s, hv.symm, (hhead i rfl).1⟩
    | _ => simpa [Net.take, Packet.message?] using hx.puts
  · intro t
    have hsorted := hx.posted t
    rw [posted_take hp] at hsorted
    split at hsorted
    · exact (List.pairwise_append.mp hsorted).2.1
    · exact hsorted
  · intro v a b i j hab hi hj
    have hj' : x.At v b j := (hat hj).resolve_right (by omega)
    rcases hat hi with hi | ⟨rfl, rfl, hpi⟩
    · exact hx.cross v a b i j hab hi hj'
    · obtain ⟨hi, hlt⟩ := hhead i hpi
      rcases Nat.lt_or_ge 1 b with hb | hb
      · exact hx.cross _ 1 b i j hb ⟨s, rfl, hi⟩ hj'
      · obtain rfl : b = 1 := by omega
        obtain ⟨t, ho, hj⟩ := hj
        intro hse
        obtain rfl := hx.one_session t s j i ho (hposted t j hj) hi hse.symm
        exact hlt j hj hse
  · intro v a j hj
    rcases hat hj with hj | ⟨_, rfl, hpj⟩
    · exact hx.bound v a j hj
    · exact hx.bound _ 1 j ⟨s, rfl, (hhead j hpj).1⟩
  · intro t t' i j ho hi hj
    exact hx.one_session t t' i j ho (hposted t i hi) (hposted t' j hj)

/-- A mailbox that is emptied puts its messages behind all others. -/
theorem in_order_flush (hx : InOrder no sender x) {s : S} {n : Nat}
    (hok : Orderly sender x (.flush s n)) : InOrder no sender (x.flush s n) := by
  have hmem : ∀ i ∈ ((x.offline (x.owner s)).reverse.take n).filterMap Entry.message?,
      i ∈ x.mail (x.owner s) := fun i hi =>
    mem_mail.mpr (List.mem_reverse.mp (List.mem_of_mem_take (mem_entries.mp hi)))
  have hat : ∀ {v a j}, (x.flush s n).At v a j → x.At v a j ∧ ¬ (v = x.owner s ∧ a = 2) ∨
      a = 0 ∧ v = x.owner s ∧ j ∈ x.mail (x.owner s) := by
    intro v a j h
    match a with
    | 0 =>
      rcases List.mem_append.mp h with h | h
      · exact .inl ⟨h, by simp⟩
      · obtain ⟨i, hi, he⟩ := List.mem_map.mp h
        obtain ⟨rfl, rfl⟩ := Prod.mk.inj he
        exact .inr ⟨rfl, rfl, hmem i hi⟩
    | 1 => exact .inl ⟨h, by simp⟩
    | 2 =>
      replace h : j ∈ (x.flush s n).mail v := h
      rw [mail_flush] at h
      split at h
      · simp at h
      · rename_i hv
        exact .inl ⟨h, fun hv' => hv hv'.1⟩
    | 3 => exact .inl ⟨h, by simp⟩
  refine ⟨?_, hx.posted, ?_, ?_, ?_, hx.one_session, hx.one_sending⟩
  · refine List.pairwise_append.mpr ⟨hx.puts, ?_, ?_⟩
    · refine List.pairwise_map.mpr
        (List.Pairwise.sublist ((List.take_sublist _ _).filterMap _) ?_)
      have hsorted := List.pairwise_reverse.mpr (hx.offline (x.owner s))
      rw [Net.mail, ← List.filterMap_reverse] at hsorted
      refine hsorted.imp ?_
      intro i j h _
      exact h
    · rintro ⟨v, j⟩ hj _ hi hv
      obtain ⟨i, hi', rfl⟩ := List.mem_map.mp hi
      obtain rfl : v = x.owner s := hv
      exact hx.cross _ 0 2 j i (by omega) hj (hmem i hi')
  · intro v
    rw [mail_flush]
    split
    · exact List.Pairwise.nil
    · exact hx.offline v
  · intro v a b i j hab hi hj
    obtain ⟨hj, hne⟩ := (hat hj).resolve_right (by omega)
    rcases hat hi with ⟨hi', _⟩ | ⟨rfl, rfl, hi'⟩
    · exact hx.cross v a b i j hab hi' hj
    · rcases Nat.lt_trichotomy b 2 with hb | rfl | hb
      · obtain rfl : b = 1 := by omega
        obtain ⟨t, ho, hj⟩ := hj
        exact fun hse => absurd hse.symm (hok i hi' t ho j hj)
      · exact absurd ⟨rfl, rfl⟩ hne
      · exact hx.cross _ 2 b i j hb hi' hj
  · intro v a j hj
    rcases hat hj with ⟨hj, _⟩ | ⟨_, _, hj⟩
    · exact hx.bound v a j hj
    · exact hx.bound _ 2 j hj

/-- The session that is admitted has no messages, so nothing changes on the way. -/
theorem in_order_join (hs : Sound x) (hx : InOrder no sender x) {s : S} {u : U}
    (hf : x.stage s = .fresh) : InOrder no sender (x.join s u) := by
  have howner : ∀ t i, i ∈ x.posted t → (x.join s u).owner t = x.owner t := by
    intro t i hi
    refine Function.update_of_ne (fun hts => ?_) _ _
    exact hs.clean s hf i (.inl (mem_pending.mpr (.inl (mem_posted.mp (hts ▸ hi)))))
  have hat : ∀ {v a j}, (x.join s u).At v a j → x.At v a j := by
    intro v a j h
    match a with
    | 0 => exact h
    | 1 =>
      obtain ⟨t, ho, hj⟩ := h
      exact ⟨t, (howner t j hj).symm.trans ho, hj⟩
    | 2 => exact h
    | 3 => exact h
  refine ⟨hx.puts, hx.posted, hx.offline, ?_, ?_, ?_, hx.one_sending⟩
  · exact fun v a b i j hab hi hj => hx.cross v a b i j hab (hat hi) (hat hj)
  · exact fun v a j hj => hx.bound v a j (hat hj)
  · intro t t' i j ho hi hj
    exact hx.one_session t t' i j ((howner t i hi).symm.trans (ho.trans (howner t' j hj))) hi hj

omit [DecidableEq U] in
theorem in_order_end_send (hx : InOrder no sender x) (s : S) :
    InOrder no sender { x with sending := Function.update x.sending s none } := by
  have hsome : ∀ s' y, Function.update x.sending s none s' = some y → x.sending s' = some y := by
    intro s' y h
    rw [Function.update_apply] at h
    split at h
    · simp at h
    · exact h
  have hat : ∀ {v a j}, Net.At { x with sending := Function.update x.sending s none } v a j →
      x.At v a j := by
    intro v a j h
    match a with
    | 0 => exact h
    | 1 => exact h
    | 2 => exact h
    | 3 =>
      obtain ⟨s', us, hs', hv⟩ := h
      exact ⟨s', us, hsome s' _ hs', hv⟩
  refine ⟨hx.puts, hx.posted, hx.offline, ?_, ?_, hx.one_session, ?_⟩
  · exact fun v a b i j hab hi hj => hx.cross v a b i j hab (hat hi) (hat hj)
  · exact fun v a j hj => hx.bound v a j (hat hj)
  · intro s₁ s₂ i₁ i₂ us₁ us₂ h₁ h₂
    exact hx.one_sending s₁ s₂ i₁ i₂ us₁ us₂ (hsome s₁ _ h₁) (hsome s₂ _ h₂)

omit [DecidableEq U] in
theorem in_order_notice (hx : InOrder no sender x) (t : S) :
    InOrder no sender (x.post t .notice) := by
  have hposted : (x.post t .notice).posted = x.posted := by
    funext t'
    rw [posted_post]
    simp [Packet.message?]
  have hat : ∀ {v a j}, (x.post t .notice).At v a j → x.At v a j := by
    intro v a j h
    match a with
    | 0 => exact h
    | 1 =>
      obtain ⟨t', ho, hj⟩ := h
      exact ⟨t', ho, hposted ▸ hj⟩
    | 2 => exact h
    | 3 => exact h
  refine ⟨hx.puts, ?_, hx.offline, ?_, ?_, ?_, hx.one_sending⟩
  · exact hposted ▸ hx.posted
  · exact fun v a b i j hab hi hj => hx.cross v a b i j hab (hat hi) (hat hj)
  · exact fun v a j hj => hx.bound v a j (hat hj)
  · rw [hposted]
    exact hx.one_session

omit [DecidableEq S] in
/-- A notice changes nothing on the way. -/
theorem in_order_store_notice (hx : InOrder no sender x) (u : U) :
    InOrder no sender (x.store u .notice) := by
  have hmail : (x.store u .notice).mail = x.mail := by
    funext v
    rw [mail_store]
    exact ite_self _
  have hat : ∀ {v a j}, (x.store u .notice).At v a j → x.At v a j := by
    intro v a j h
    match a with
    | 0 => exact h
    | 1 => exact h
    | 2 =>
      have hj : j ∈ (x.store u .notice).mail v := h
      rwa [hmail] at hj
    | 3 => exact h
  refine ⟨hx.puts, hx.posted, ?_, ?_, ?_, hx.one_session, hx.one_sending⟩
  · exact hmail ▸ hx.offline
  · exact fun v a b i j hab hi hj => hx.cross v a b i j hab (hat hi) (hat hj)
  · exact fun v a j hj => hx.bound v a j (hat hj)

theorem in_order_step (hs : Sound x) (hx : InOrder no sender x) (hok : Orderly sender x m)
    (h : step no sender x m = some x') : InOrder no sender x' := by
  cases step_cases h with
  | join hf => exact in_order_join hs hx hf
  | flush _ _ => exact in_order_flush hx hok
  | start_send _ _ hno _ _ => exact in_order_start_send hx hno hok
  | deliver hsend ht => exact in_order_deliver hs hx hsend ht hok
  | store hsend => exact in_order_store hs hx hsend
  | store_notice => exact in_order_store_notice hx _
  | end_send _ => exact in_order_end_send hx _
  | post_notice => exact in_order_notice hx _
  | take hp => exact in_order_take hx hp
  | _ =>
    exact ⟨hx.puts, hx.posted, hx.offline, hx.cross, hx.bound, hx.one_session, hx.one_sending⟩

/-- In a run of orderly moves the messages of each sender are put on the queues of each user's
sessions in the order in which they were sent. -/
theorem puts_are_in_order {nobody : U} {ms : List (Move U S I)}
    (hok : (machine no sender nobody).Meets (Orderly sender) ms)
    (hr : (machine no sender nobody).run ms = some x) :
    x.puts.Pairwise fun p q => p.1 = q.1 → Before no sender p.2 q.2 := by
  have hinv : Sound x ∧ InOrder no sender x := by
    refine Machine.invariant_of_meets (I := fun x => Sound x ∧ InOrder no sender x)
      ⟨sound_start nobody, ?_⟩ ?_ hok hr
    · have hat : ∀ v a j, ¬ ((machine no sender nobody).start : Net U S I).At v a j := by
        intro v a j h
        match a with
        | 0 => simp [machine, Net.At] at h
        | 1 => simp [machine, Net.At, Net.posted] at h
        | 2 => simp [machine, Net.At, Net.mail] at h
        | 3 => simp [machine, Net.At] at h
      refine ⟨List.Pairwise.nil, fun _ => List.Pairwise.nil, fun _ => List.Pairwise.nil, ?_, ?_, ?_,
        ?_⟩
      · exact fun v a _ i _ _ hi _ => absurd hi (hat v a i)
      · exact fun v a j hj => absurd hj (hat v a j)
      · exact fun t _ i _ _ hi _ => absurd ⟨t, rfl, hi⟩ (hat _ 1 i)
      · simp [machine]
    · rintro x m x' ⟨hs, hx⟩ hok h
      exact ⟨sound_step hs h, in_order_step hs hx hok h⟩
  exact hinv.2.puts

end store_forward
