-- The copies of a message in store and forward: who may hold one, and that
-- nobody has two.
import Loomic.Lib.StoreForwardLaws
import Mathlib.Data.List.Perm.Basic

open machines

namespace store_forward

/-! ## Things in places -/

section Places

variable {P U I : Type*} {user : P → U} {content : P → List I}

/-- No thing is twice in a place, or in two places of one user. -/
structure Once (user : P → U) (content : P → List I) : Prop where
  nodup : ∀ p, (content p).Nodup
  one_place : ∀ p q i, user p = user q → i ∈ content p → i ∈ content q → p = q

/-- The places with something in them keep their users. -/
theorem Once.of_users {user' : P → U} (h : Once user content)
    (huser : ∀ p i, i ∈ content p → user' p = user p) : Once user' content where
  nodup := h.nodup
  one_place := by
    intro p q i hpq hp hq
    rw [huser p i hp, huser q i hq] at hpq
    exact h.one_place p q i hpq hp hq

variable [DecidableEq P]

/-- A thing that its new user has nowhere is added. -/
theorem Once.add (h : Once user content) {q : P} {i : I} {l : List I}
    (hl : l.Perm (i :: content q)) (hnew : ∀ p, user p = user q → i ∉ content p) :
    Once user (Function.update content q l) := by
  have hmem : ∀ {p j}, j ∈ Function.update content q l p → p = q ∧ j = i ∨ j ∈ content p := by
    intro p j hj
    rw [Function.update_apply] at hj
    split at hj
    · rename_i hpq
      rcases List.mem_cons.mp (hl.mem_iff.mp hj) with rfl | hj
      · exact .inl ⟨hpq, rfl⟩
      · exact .inr (hpq ▸ hj)
    · exact .inr hj
  constructor
  · intro p
    rw [Function.update_apply]
    split
    · exact hl.nodup_iff.mpr (List.nodup_cons.mpr ⟨hnew q rfl, h.nodup q⟩)
    · exact h.nodup p
  · intro p p' j huser hp hp'
    rcases hmem hp with ⟨hpq, rfl⟩ | hold
    · rcases hmem hp' with ⟨hpq', _⟩ | hold'
      · exact hpq.trans hpq'.symm
      · exact absurd hold' (hnew p' (huser.symm.trans (congrArg user hpq)))
    · rcases hmem hp' with ⟨hpq', rfl⟩ | hold'
      · exact absurd hold (hnew p (huser.trans (congrArg user hpq')))
      · exact h.one_place p p' j huser hold hold'

/-- Some things are moved to another place of their user. -/
theorem Once.move (h : Once user content) (p q : P) (hne : p ≠ q) (huser : user p = user q)
    {moved rest : List I} (hp : (content p).Perm (moved ++ rest)) :
    Once user (Function.update (Function.update content p rest) q (content q ++ moved)) := by
  have hnodup := List.nodup_append.mp (hp.nodup_iff.mp (h.nodup p))
  have hmoved : ∀ {i}, i ∈ moved → i ∈ content p := fun hi =>
    hp.mem_iff.mpr (List.mem_append_left rest hi)
  have hrest : ∀ {i}, i ∈ rest → i ∈ content p := fun hi =>
    hp.mem_iff.mpr (List.mem_append_right moved hi)
  have hmem : ∀ {a i},
      i ∈ Function.update (Function.update content p rest) q (content q ++ moved) a →
      a = q ∧ i ∈ moved ∨ i ∈ content a ∧ (a = p → i ∉ moved) := by
    intro a i hi
    rw [Function.update_apply] at hi
    split at hi
    · rename_i haq
      rcases List.mem_append.mp hi with hi | hi
      · exact .inr ⟨haq ▸ hi, fun hap => absurd (hap.symm.trans haq) hne⟩
      · exact .inl ⟨haq, hi⟩
    · rw [Function.update_apply] at hi
      split at hi
      · rename_i hap
        exact .inr ⟨hap ▸ hrest hi, fun _ hm => hnodup.2.2 i hm i hi rfl⟩
      · rename_i hap
        exact .inr ⟨hi, fun h => absurd h hap⟩
  constructor
  · intro a
    rw [Function.update_apply]
    split
    · refine List.nodup_append.mpr ⟨h.nodup q, hnodup.1, fun i hi j hj hij => ?_⟩
      subst hij
      exact hne (h.one_place p q i huser (hmoved hj) hi)
    · rw [Function.update_apply]
      split
      · exact hnodup.2.1
      · exact h.nodup a
  · intro a b i hab ha hb
    rcases hmem ha with ⟨haq, hi⟩ | ⟨hold, hap⟩
    · rcases hmem hb with ⟨hbq, _⟩ | ⟨hold', hbp⟩
      · exact haq.trans hbq.symm
      · have hbuser : user b = user p := hab.symm.trans ((congrArg user haq).trans huser.symm)
        exact absurd hi (hbp (h.one_place b p i hbuser hold' (hmoved hi)))
    · rcases hmem hb with ⟨hbq, hi⟩ | ⟨hold', _⟩
      · have hauser : user a = user p := hab.trans ((congrArg user hbq).trans huser.symm)
        exact absurd hi (hap (h.one_place a p i hauser hold (hmoved hi)))
      · exact h.one_place a b i hab hold hold'

end Places

variable {U S I : Type*}

/-! ## The places of a net -/

/-- Where a message can be. -/
inductive Place (U S : Type*)
  | mailbox (u : U)
  | posts (s : S)
  | queue (s : S)
  | in_flight (s : S)
  | written (s : S)
  | lost (s : S)
  deriving DecidableEq

/-- The messages in a place. -/
def Net.content (x : Net U S I) : Place U S → List I
  | .mailbox u => x.mail u
  | .posts s => messages (x.posts s)
  | .queue s => messages (x.queue s)
  | .in_flight s => messages (x.in_flight s).toList
  | .written s => messages (x.written s)
  | .lost s => messages (x.lost s)

/-- Whose place it is. -/
def Net.place_user (x : Net U S I) : Place U S → U
  | .mailbox u => u
  | .posts s | .queue s | .in_flight s | .written s | .lost s => x.owner s

@[simp] theorem messages_nil : messages ([] : List (Packet U I)) = [] := rfl

@[simp] theorem messages_cons (p : Packet U I) (ps : List (Packet U I)) :
    messages (p :: ps) = p.message?.toList ++ messages ps := by
  unfold messages
  cases h : p.message? <;> simp [h]

@[simp] theorem messages_append (ps qs : List (Packet U I)) :
    messages (ps ++ qs) = messages ps ++ messages qs := List.filterMap_append

@[simp] theorem messages_packets (es : List (Entry I)) :
    messages (es.map (Entry.packet : Entry I → Packet U I)) = es.filterMap Entry.message? := by
  unfold messages
  rw [List.filterMap_map]
  exact List.filterMap_congr fun e _ => message?_packet e

/-- A message is in a mailbox, or a session has it. -/
theorem mailbox_or_has {x : Net U S I} {p : Place U S} {i : I} (h : i ∈ x.content p) :
    (∃ u, p = .mailbox u ∧ i ∈ x.mail u) ∨
      ∃ s, x.Has s (.message i) ∧ ∀ y : Net U S I, y.place_user p = y.owner s := by
  cases p with
  | mailbox u => exact .inl ⟨u, rfl, h⟩
  | posts s =>
    exact .inr ⟨s, .inl (mem_pending.mpr (.inl (mem_messages.mp h))), fun _ => rfl⟩
  | queue s =>
    exact .inr ⟨s, .inl (mem_pending.mpr (.inr (.inl (mem_messages.mp h)))), fun _ => rfl⟩
  | in_flight s =>
    have hflight : x.in_flight s = some (.message i) := by simpa using mem_messages.mp h
    exact .inr ⟨s, .inl (mem_pending.mpr (.inr (.inr hflight))), fun _ => rfl⟩
  | written s => exact .inr ⟨s, .inr (.inl (mem_messages.mp h)), fun _ => rfl⟩
  | lost s => exact .inr ⟨s, .inr (.inr (mem_messages.mp h)), fun _ => rfl⟩

theorem held_of_mem_content {x : Net U S I} {p : Place U S} {i : I} (h : i ∈ x.content p) :
    x.Held (x.place_user p) i := by
  rcases mailbox_or_has h with ⟨u, rfl, hi⟩ | ⟨s, hhas, huser⟩
  · exact .inl hi
  · exact .inr ⟨s, (huser x).symm, hhas⟩

/-! ## One copy -/

section Copies

variable {no : I → Nat} {sender : I → U} {x x' : Net U S I} {m : Move U S I}

/-- A user is served with a message that he has nowhere. -/
theorem not_mem_content_of_sending (hn : Numbered no x) {s : S} {i : I} {u : U} {us : List U}
    (hs : x.sending s = some (i, u :: us)) {p : Place U S} (hp : x.place_user p = u) :
    i ∉ x.content p := fun hi =>
  hn.unserved s i _ hs u List.mem_cons_self i (hp ▸ held_of_mem_content hi) rfl

variable [DecidableEq U] [DecidableEq S]

theorem content_flush (s : S) (n : Nat) : (x.flush s n).content =
    let batch := (x.offline (x.owner s)).reverse
    let taken := (batch.take n).filterMap Entry.message?
    let left := (batch.drop n).filterMap Entry.message?
    let c := Function.update (Function.update x.content (.mailbox (x.owner s)) left)
      (.queue s) (x.content (.queue s) ++ taken)
    Function.update (Function.update c (.mailbox (x.owner s)) []) (.lost s)
      (c (.lost s) ++ left) := by
  funext p
  cases p with
  | mailbox u => by_cases h : u = x.owner s <;> simp [Net.content, mail_flush, h]
  | queue t | lost t =>
    by_cases h : t = s <;>
      simp [Net.content, Net.flush, append_at_apply, h, -List.map_take, -List.map_drop]
  | _ => simp [Net.content, Net.flush]

theorem content_take (s : S) (p : Packet U I) (ps : List (Packet U I)) :
    (x.take s p ps).content =
      Function.update (Function.update x.content (.posts s) (messages ps)) (.queue s)
        (x.content (.queue s) ++ p.message?.toList) := by
  funext a
  cases a with
  | posts t | queue t =>
    by_cases ht : t = s <;> simp [Net.content, Net.take, append_at_apply, ht]
  | _ => simp [Net.content, Net.mail, Net.take]

theorem content_next {s : S} {p : Packet U I} {ps : List (Packet U I)}
    (hf : x.in_flight s = none) : (x.next s p ps).content =
      Function.update (Function.update x.content (.queue s) (messages ps)) (.in_flight s)
        (x.content (.in_flight s) ++ p.message?.toList) := by
  funext a
  cases a with
  | queue t | in_flight t =>
    by_cases ht : t = s <;> simp [Net.content, Net.next, ht, hf]
  | _ => simp [Net.content, Net.mail, Net.next]

theorem content_wrote (s : S) (p : Packet U I) : (x.wrote s p).content =
      Function.update (Function.update x.content (.in_flight s) []) (.written s)
        (x.content (.written s) ++ p.message?.toList) := by
  funext a
  cases a with
  | in_flight t | written t =>
    by_cases ht : t = s <;> simp [Net.content, Net.wrote, append_at_apply, ht]
  | _ => simp [Net.content, Net.mail, Net.wrote]

theorem content_fail (s : S) (p : Packet U I) : (x.fail s p).content =
      Function.update (Function.update x.content (.in_flight s) []) (.lost s)
        (x.content (.lost s) ++ p.message?.toList) := by
  funext a
  cases a with
  | in_flight t | lost t =>
    by_cases ht : t = s <;> simp [Net.content, Net.fail, append_at_apply, ht]
  | _ => simp [Net.content, Net.mail, Net.fail]

theorem content_post (t : S) (p : Packet U I) : (x.post t p).content =
    Function.update x.content (.posts t) (x.content (.posts t) ++ p.message?.toList) := by
  funext a
  cases a with
  | posts t' => by_cases ht : t' = t <;> simp [Net.content, Net.post, append_at_apply, ht]
  | _ => simp [Net.content, Net.mail, Net.post]

theorem content_push (t : S) (p : Packet U I) : (x.push t p).content =
    Function.update x.content (.queue t) (x.content (.queue t) ++ p.message?.toList) := by
  funext a
  cases a with
  | queue t' => by_cases ht : t' = t <;> simp [Net.content, Net.push, append_at_apply, ht]
  | _ => simp [Net.content, Net.mail, Net.push]

/-- What is not a message adds none. -/
theorem update_append_none {c : Place U S → List I} {p : Packet U I} (hp : p.message? = none)
    (a : Place U S) : Function.update c a (c a ++ p.message?.toList) = c := by
  rw [hp, Option.toList_none, List.append_nil, Function.update_eq_self]

theorem content_reply (s : S) (i : I) (u : U) (r : Reply S) :
    (x.reply s i u r).content = x.content := by
  cases r with
  | silent => rfl
  | post t => exact (@content_post _ _ _ x _ _ t _).trans (update_append_none rfl _)
  | push => exact (@content_push _ _ _ x _ _ s _).trans (update_append_none rfl _)

theorem content_store (u : U) (e : Entry I) : (x.store u e).content =
    Function.update x.content (.mailbox u) (e.message?.toList ++ x.content (.mailbox u)) := by
  funext a
  cases a with
  | mailbox v => by_cases hv : v = u <;> simp [Net.content, mail_store, hv]
  | _ => simp [Net.content, Net.store]

/-- A place with a message in it keeps its user. -/
theorem place_user_of_step (hs : Sound x) (h : step no sender x m = some x') {p : Place U S} {i : I}
    (hi : i ∈ x.content p) : x'.place_user p = x.place_user p := by
  rcases mailbox_or_has hi with ⟨u, rfl, _⟩ | ⟨s, hhas, huser⟩
  · rfl
  · rw [huser x', huser x, owner_of_has hs h hhas]

theorem once_step (hs : Sound x) (hn : Numbered no x) (hx : Once x.place_user x.content)
    (h : step no sender x m = some x') : Once x'.place_user x'.content := by
  have hkeep : Once x'.place_user x.content :=
    hx.of_users fun p i hi => place_user_of_step hs h hi
  have hnew : ∀ {s i u us}, x.sending s = some (i, u :: us) →
      ∀ p, x'.place_user p = u → i ∉ x.content p := fun hsend p hp hi =>
    not_mem_content_of_sending hn hsend ((place_user_of_step hs h hi).symm.trans hp) hi
  cases step_cases h with
  | @flush s n _ _ =>
    rw [content_flush]
    have hbatch : (x.content (.mailbox (x.owner s))).Perm
        (((x.offline (x.owner s)).reverse.take n).filterMap Entry.message? ++
          ((x.offline (x.owner s)).reverse.drop n).filterMap Entry.message?) := by
      rw [← List.filterMap_append, List.take_append_drop]
      exact (List.reverse_perm _).symm.filterMap _
    have hqueued := hkeep.move (.mailbox _) (.queue s) (by simp) rfl hbatch
    refine hqueued.move (.mailbox _) (.lost s) (by simp) rfl ?_
    rw [List.append_nil, Function.update_of_ne (by simp), Function.update_self]
  | @deliver s r i u us t hsend ht =>
    have howner : (((x.post t (.message i)).reply s i u r).served s i u us).owner t = u := by
      cases r <;> exact hs.owner_eq u t ht
    change Once _ ((x.post t (.message i)).reply s i u r).content
    rw [content_reply, content_post]
    exact hkeep.add (List.perm_append_singleton _ _) fun p hp => hnew hsend p (hp.trans howner)
  | @store s i u us hsend =>
    change Once _ (x.store u (.message i)).content
    rw [content_store]
    exact hkeep.add (.refl _) (hnew hsend)
  | @store_notice u =>
    rw [content_store, Entry.message?, Option.toList_none, List.nil_append,
      Function.update_eq_self]
    exact hkeep
  | @post_notice s =>
    have hcontent := (@content_post _ _ _ x _ _ s .notice).trans (update_append_none rfl _)
    exact hcontent ▸ hkeep
  | @push_notice s =>
    have hcontent := (@content_push _ _ _ x _ _ s .notice).trans (update_append_none rfl _)
    exact hcontent ▸ hkeep
  | @take s p ps hp =>
    rw [content_take]
    refine hkeep.move (.posts s) (.queue s) (by simp) rfl (.of_eq ?_)
    rw [Net.content, hp, messages_cons]
  | @next s p ps hf hq =>
    rw [content_next hf]
    refine hkeep.move (.queue s) (.in_flight s) (by simp) rfl (.of_eq ?_)
    rw [Net.content, hq, messages_cons]
  | @wrote s p hp =>
    rw [content_wrote]
    refine hkeep.move (.in_flight s) (.written s) (by simp) rfl (.of_eq ?_)
    rw [Net.content, hp, Option.toList_some, messages_cons, messages_nil]
  | @fail s p hp =>
    rw [content_fail]
    refine hkeep.move (.in_flight s) (.lost s) (by simp) rfl (.of_eq ?_)
    rw [Net.content, hp, Option.toList_some, messages_cons, messages_nil]
  | _ => exact hkeep

theorem once_start (nobody : U) :
    Once (machine no sender nobody : Machine (Net U S I) (Move U S I)).start.place_user
      (machine no sender nobody : Machine (Net U S I) (Move U S I)).start.content := by
  have hempty : ∀ p, (machine no sender nobody :
      Machine (Net U S I) (Move U S I)).start.content p = [] := by
    intro p
    cases p <;> rfl
  refine ⟨fun p => ?_, fun p q i _ hp => ?_⟩
  · rw [hempty]
    exact List.nodup_nil
  · rw [hempty] at hp
    exact absurd hp List.not_mem_nil

/-- In every run a message is in one place of each user at most, and once there. -/
theorem nobody_has_two_copies {nobody : U} {ms : List (Move U S I)}
    (hr : (machine no sender nobody).run ms = some x) : Once x.place_user x.content := by
  have h : Sound x ∧ Numbered no x ∧ Once x.place_user x.content :=
    Machine.invariant (I := fun x : Net U S I =>
      Sound x ∧ Numbered no x ∧ Once x.place_user x.content)
      ⟨sound_start nobody, numbered_start nobody, once_start nobody⟩
      (fun _ _ _ h hstep => ⟨sound_step h.1 hstep, numbered_step h.1 h.2.1 hstep,
        once_step h.1 h.2.1 h.2.2 hstep⟩) hr
  exact h.2.2

/-! ## The holders -/

end Copies

end store_forward
