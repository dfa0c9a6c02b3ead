-- Store and forward. Users have sessions that come and go. A message for a
-- user is posted to the session that the registry names, or stored in the
-- user's mailbox, which the next session of the user empties into its queue.
-- Each session writes the packets of its queue one by one.
import Loomic.Lib.Machine
import Mathlib.Data.List.Nodup
import Mathlib.Logic.Function.Basic

open machines

namespace store_forward

variable {U S I β : Type*} [DecidableEq U] [DecidableEq S]

/-! ## The state -/

inductive Packet (U I : Type*)
  | message (i : I)
  | receipt (i : I) (u : U)
  | notice
  deriving DecidableEq

def Packet.message? : Packet U I → Option I
  | .message i => some i
  | _ => none

/-- What a mailbox can hold. A receipt is never stored. -/
inductive Entry (I : Type*)
  | message (i : I)
  | notice
  deriving DecidableEq

def Entry.packet : Entry I → Packet U I
  | .message i => .message i
  | .notice => .notice

def Entry.message? : Entry I → Option I
  | .message i => some i
  | .notice => none

def messages (ps : List (Packet U I)) : List I := ps.filterMap Packet.message?

/-- A session is fresh until its user is known, and flushed once it has emptied the mailbox. -/
inductive Stage
  | fresh
  | registered
  | flushed
  deriving DecidableEq

/-- What the sessions hold, the mailboxes with the newest entry first, and the history: which
message was routed to whom, which one was put on a queue for whom, and the receipts. -/
structure Net (U S I : Type*) where
  owner : S → U
  stage : S → Stage
  active : S → Bool
  sending : S → Option (I × List U)
  posts : S → List (Packet U I)
  queue : S → List (Packet U I)
  in_flight : S → Option (Packet U I)
  written : S → List (Packet U I)
  lost : S → List (Packet U I)
  registry : U → Option S
  offline : U → List (Entry I)
  routed : List (I × U)
  puts : List (U × I)
  receipts : List (I × U)
  next_no : Nat

/-- What the sender of a message gets when it is posted: nothing, or a receipt, which goes to
the posts of a session or onto the queue of his own. -/
inductive Reply (S : Type*)
  | silent
  | post (t : S)
  | push
  deriving DecidableEq

inductive Move (U S I : Type*)
  | join (s : S) (u : U)
  | flush (s : S) (n : Nat)
  | start_send (s : S) (i : I) (us : List U)
  | deliver (s : S) (reply : Reply S)
  | store (s : S)
  | store_notice (u : U)
  | end_send (s : S)
  | post_notice (s : S)
  | push_notice (s : S)
  | take (s : S)
  | next (s : S)
  | wrote (s : S)
  | fail (s : S)
  | close (s : S)
  | forget (u : U)

/-! ## The moves -/

def append_at (f : S → List β) (s : S) (l : List β) : S → List β :=
  Function.update f s (f s ++ l)

theorem append_at_apply (f : S → List β) (s t : S) (l : List β) :
    append_at f s l t = if t = s then f t ++ l else f t := by
  unfold append_at
  by_cases h : t = s
  · subst h
    simp
  · simp [h]

@[simp] theorem mem_append_at {f : S → List β} {s t : S} {l : List β} {b : β} :
    b ∈ append_at f s l t ↔ b ∈ f t ∨ t = s ∧ b ∈ l := by
  rw [append_at_apply]
  by_cases h : t = s <;> simp [h]

namespace Net

variable (x : Net U S I)

def join (s : S) (u : U) : Net U S I :=
  { x with
    owner := Function.update x.owner s u
    stage := Function.update x.stage s .registered
    registry := Function.update x.registry u (some s) }

/-- The messages in the mailbox of a user. -/
def mail (u : U) : List I := (x.offline u).filterMap Entry.message?

/-- The mailbox is emptied. Its first `n` entries get onto the queue, the oldest first. -/
def flush (s : S) (n : Nat) : Net U S I :=
  let batch := (x.offline (x.owner s)).reverse
  { x with
    stage := Function.update x.stage s .flushed
    queue := append_at x.queue s ((batch.take n).map Entry.packet)
    lost := append_at x.lost s ((batch.drop n).map Entry.packet)
    offline := Function.update x.offline (x.owner s) []
    puts := x.puts ++ ((batch.take n).filterMap Entry.message?).map (x.owner s, ·) }

def start_send (s : S) (i : I) (us : List U) : Net U S I :=
  { x with sending := Function.update x.sending s (some (i, us)), next_no := x.next_no + 1 }

/-- The first of the users still to be served has been. -/
def served (s : S) (i : I) (u : U) (us : List U) : Net U S I :=
  { x with
    sending := Function.update x.sending s (some (i, us))
    routed := x.routed ++ [(i, u)] }

def post (t : S) (p : Packet U I) : Net U S I :=
  { x with posts := append_at x.posts t [p] }

def push (s : S) (p : Packet U I) : Net U S I :=
  { x with queue := append_at x.queue s [p] }

def reply (s : S) (i : I) (u : U) : Reply S → Net U S I
  | .silent => x
  | .post t => { x.post t (.receipt i u) with receipts := x.receipts ++ [(i, u)] }
  | .push => { x.push s (.receipt i u) with receipts := x.receipts ++ [(i, u)] }

def store (u : U) (e : Entry I) : Net U S I :=
  { x with offline := Function.update x.offline u (e :: x.offline u) }

/-- The first post is run: it puts its packet onto the queue. -/
def take (s : S) (p : Packet U I) (ps : List (Packet U I)) : Net U S I :=
  { x with
    posts := Function.update x.posts s ps
    queue := append_at x.queue s [p]
    puts := x.puts ++ p.message?.toList.map (x.owner s, ·) }

def next (s : S) (p : Packet U I) (ps : List (Packet U I)) : Net U S I :=
  { x with
    queue := Function.update x.queue s ps
    in_flight := Function.update x.in_flight s (some p) }

def wrote (s : S) (p : Packet U I) : Net U S I :=
  { x with
    in_flight := Function.update x.in_flight s none
    written := append_at x.written s [p] }

def fail (s : S) (p : Packet U I) : Net U S I :=
  { x with
    in_flight := Function.update x.in_flight s none
    lost := append_at x.lost s [p] }

end Net

variable (no : I → Nat) (sender : I → U)

/-- One move. A message gets the next number, and is sent by a session of its sender. -/
def step (x : Net U S I) : Move U S I → Option (Net U S I)
  | .join s u => if x.stage s = .fresh then some (x.join s u) else none
  | .flush s n => if x.stage s ≠ .fresh ∧ x.active s then some (x.flush s n) else none
  | .start_send s i us =>
    if x.stage s ≠ .fresh ∧ x.sending s = none ∧ no i = x.next_no ∧ sender i = x.owner s ∧ us.Nodup
    then some (x.start_send s i us) else none
  | .deliver s reply =>
    match x.sending s with
    | some (i, u :: us) => (x.registry u).map fun t =>
        ((x.post t (.message i)).reply s i u reply).served s i u us
    | _ => none
  | .store s =>
    match x.sending s with
    | some (i, u :: us) => some ((x.store u (.message i)).served s i u us)
    | _ => none
  | .store_notice u => some (x.store u .notice)
  | .end_send s =>
    match x.sending s with
    | some (_, []) => some { x with sending := Function.update x.sending s none }
    | _ => none
  | .post_notice s => some (x.post s .notice)
  | .push_notice s => some (x.push s .notice)
  | .take s =>
    match x.posts s with
    | p :: ps => some (x.take s p ps)
    | [] => none
  | .next s =>
    match x.in_flight s, x.queue s with
    | none, p :: ps => some (x.next s p ps)
    | _, _ => none
  | .wrote s => (x.in_flight s).map (x.wrote s)
  | .fail s => (x.in_flight s).map (x.fail s)
  | .close s => some { x with active := Function.update x.active s false }
  | .forget u => some { x with registry := Function.update x.registry u none }

/-- In the beginning every session is fresh. -/
def machine (nobody : U) : Machine (Net U S I) (Move U S I) where
  start :=
    { owner := fun _ => nobody
      stage := fun _ => .fresh
      active := fun _ => true
      sending := fun _ => none
      posts := fun _ => []
      queue := fun _ => []
      in_flight := fun _ => none
      written := fun _ => []
      lost := fun _ => []
      registry := fun _ => none
      offline := fun _ => []
      routed := []
      puts := []
      receipts := []
      next_no := 0 }
  step := step no sender

/-- What a move can do. -/
inductive Step (x : Net U S I) : Move U S I → Net U S I → Prop
  | join {s u} (h : x.stage s = .fresh) : Step x (.join s u) (x.join s u)
  | flush {s n} (h : x.stage s ≠ .fresh) (ha : x.active s) : Step x (.flush s n) (x.flush s n)
  | start_send {s i us} (hs : x.stage s ≠ .fresh) (hn : x.sending s = none)
      (hno : no i = x.next_no) (ho : sender i = x.owner s) (hd : us.Nodup) :
      Step x (.start_send s i us) (x.start_send s i us)
  | deliver {s reply i u us t} (hs : x.sending s = some (i, u :: us))
      (ht : x.registry u = some t) :
      Step x (.deliver s reply) (((x.post t (.message i)).reply s i u reply).served s i u us)
  | store {s i u us} (hs : x.sending s = some (i, u :: us)) :
      Step x (.store s) ((x.store u (.message i)).served s i u us)
  | store_notice {u} : Step x (.store_notice u) (x.store u .notice)
  | end_send {s i} (hs : x.sending s = some (i, [])) :
      Step x (.end_send s) { x with sending := Function.update x.sending s none }
  | post_notice {s} : Step x (.post_notice s) (x.post s .notice)
  | push_notice {s} : Step x (.push_notice s) (x.push s .notice)
  | take {s p ps} (h : x.posts s = p :: ps) : Step x (.take s) (x.take s p ps)
  | next {s p ps} (hf : x.in_flight s = none) (hq : x.queue s = p :: ps) :
      Step x (.next s) (x.next s p ps)
  | wrote {s p} (h : x.in_flight s = some p) : Step x (.wrote s) (x.wrote s p)
  | fail {s p} (h : x.in_flight s = some p) : Step x (.fail s) (x.fail s p)
  | close {s} : Step x (.close s) { x with active := Function.update x.active s false }
  | forget {u} : Step x (.forget u) { x with registry := Function.update x.registry u none }

variable {no sender} {x x' : Net U S I} {m : Move U S I}

theorem step_cases (h : step no sender x m = some x') : Step no sender x m x' := by
  cases m with
  | join s u =>
    simp only [step] at h
    split_ifs at h with hs
    exact Option.some.inj h ▸ .join hs
  | flush s n =>
    simp only [step] at h
    split_ifs at h with hs
    exact Option.some.inj h ▸ .flush hs.1 hs.2
  | start_send s i us =>
    simp only [step] at h
    split_ifs at h with hs
    obtain ⟨hs, hn, hno, ho, hd⟩ := hs
    exact Option.some.inj h ▸ .start_send hs hn hno ho hd
  | deliver s reply =>
    simp only [step] at h
    split at h
    · rename_i i u us hs
      obtain ⟨t, ht, rfl⟩ := Option.map_eq_some_iff.mp h
      exact .deliver hs ht
    · simp at h
  | store s =>
    simp only [step] at h
    split at h
    · rename_i i u us hs
      exact Option.some.inj h ▸ .store hs
    · simp at h
  | store_notice u => exact Option.some.inj h ▸ .store_notice
  | end_send s =>
    simp only [step] at h
    split at h
    · rename_i i hs
      exact Option.some.inj h ▸ .end_send hs
    · simp at h
  | post_notice s => exact Option.some.inj h ▸ .post_notice
  | push_notice s => exact Option.some.inj h ▸ .push_notice
  | take s =>
    simp only [step] at h
    split at h
    · rename_i p ps hp
      exact Option.some.inj h ▸ .take hp
    · simp at h
  | next s =>
    simp only [step] at h
    split at h
    · rename_i p ps hf hq
      exact Option.some.inj h ▸ .next hf hq
    · simp at h
  | wrote s =>
    obtain ⟨p, hp, rfl⟩ := Option.map_eq_some_iff.mp h
    exact .wrote hp
  | fail s =>
    obtain ⟨p, hp, rfl⟩ := Option.map_eq_some_iff.mp h
    exact .fail hp
  | close s => exact Option.some.inj h ▸ .close
  | forget u => exact Option.some.inj h ▸ .forget

/-! ## What a session has -/

/-- The packets that a session has still to write. -/
def Net.pending (x : Net U S I) (s : S) : List (Packet U I) :=
  x.posts s ++ x.queue s ++ (x.in_flight s).toList

/-- A packet never leaves the session that got it: it moves on to the queue, to the socket and
to what is written, or is lost. -/
def Net.Has (x : Net U S I) (s : S) (p : Packet U I) : Prop :=
  p ∈ x.pending s ∨ p ∈ x.written s ∨ p ∈ x.lost s

/-- Messages that are in the mailbox of a user, or that a session of the user has. -/
def Net.Held (x : Net U S I) (u : U) (i : I) : Prop :=
  i ∈ x.mail u ∨ ∃ s, x.owner s = u ∧ x.Has s (.message i)

/-- The registry names sessions of the right user, a fresh session has no message, and nobody is
to be served twice with a message. -/
structure Sound (x : Net U S I) : Prop where
  owner_eq : ∀ u t, x.registry u = some t → x.owner t = u
  stage_ne : ∀ u t, x.registry u = some t → x.stage t ≠ .fresh
  idle : ∀ s, x.stage s = .fresh → x.sending s = none
  clean : ∀ s, x.stage s = .fresh → ∀ i, ¬ x.Has s (.message i)
  nodup : ∀ s i us, x.sending s = some (i, us) → us.Nodup

/-- What a session gets: an entry of the mailbox, a message that is delivered to it, a receipt
or a notice. -/
inductive Gets (x : Net U S I) (t : S) : Move U S I → Packet U I → Prop
  | flush {n i} (h : i ∈ x.mail (x.owner t)) : Gets x t (.flush t n) (.message i)
  | flush_notice {n} : Gets x t (.flush t n) .notice
  | deliver {s r i u us} (hs : x.sending s = some (i, u :: us)) (ht : x.registry u = some t) :
      Gets x t (.deliver s r) (.message i)
  | receipt {s r i u us} (hs : x.sending s = some (i, u :: us))
      (hr : r = .post t ∨ r = .push ∧ t = s) : Gets x t (.deliver s r) (.receipt i u)
  | post_notice : Gets x t (.post_notice t) .notice
  | push_notice : Gets x t (.push_notice t) .notice

/-- A move that serves a user with a message. -/
def Serves (x : Net U S I) (m : Move U S I) (u : U) (i : I) : Prop :=
  ∃ s us, x.sending s = some (i, u :: us) ∧ (m = .store s ∨ ∃ r, m = .deliver s r)

section Holdings

omit [DecidableEq U] [DecidableEq S] in
@[simp] theorem message?_packet (e : Entry I) :
    (e.packet : Packet U I).message? = e.message? := by
  cases e <;> rfl

omit [DecidableEq U] [DecidableEq S] in
theorem mem_messages {ps : List (Packet U I)} {i : I} : i ∈ messages ps ↔ .message i ∈ ps := by
  unfold messages
  rw [List.mem_filterMap]
  constructor
  · rintro ⟨p, hp, hpi⟩
    cases p with
    | message j => exact Option.some.inj hpi ▸ hp
    | receipt j u => cases hpi
    | notice => cases hpi
  · exact fun h => ⟨_, h, rfl⟩

omit [DecidableEq U] [DecidableEq S] in
theorem mem_entries {es : List (Entry I)} {i : I} :
    i ∈ es.filterMap Entry.message? ↔ .message i ∈ es := by
  rw [List.mem_filterMap]
  constructor
  · rintro ⟨e, he, hei⟩
    cases e with
    | message j => exact Option.some.inj hei ▸ he
    | notice => cases hei
  · exact fun h => ⟨_, h, rfl⟩

omit [DecidableEq U] [DecidableEq S] in
theorem message_mem_packets {es : List (Entry I)} {i : I} :
    (.message i : Packet U I) ∈ es.map Entry.packet ↔ .message i ∈ es := by
  rw [List.mem_map]
  constructor
  · rintro ⟨e, he, hei⟩
    cases e with
    | message j =>
      obtain rfl : j = i := by simpa [Entry.packet] using hei
      exact he
    | notice => cases hei
  · exact fun h => ⟨_, h, rfl⟩

omit [DecidableEq S] in
theorem mail_store (u v : U) (e : Entry I) :
    (x.store u e).mail v = if v = u then e.message?.toList ++ x.mail v else x.mail v := by
  by_cases h : v = u
  · subst h
    simp only [Net.mail, Net.store, Function.update_self, if_true]
    cases e <;> rfl
  · simp [Net.mail, Net.store, h]

theorem mail_flush (s : S) (n : Nat) (v : U) :
    (x.flush s n).mail v = if v = x.owner s then [] else x.mail v := by
  by_cases h : v = x.owner s <;> simp [Net.mail, Net.flush, h]

omit [DecidableEq U] [DecidableEq S] in
theorem mem_mail {u : U} {i : I} : i ∈ x.mail u ↔ .message i ∈ x.offline u := mem_entries

omit [DecidableEq U] [DecidableEq S] in
theorem mem_pending {s : S} {p : Packet U I} :
    p ∈ x.pending s ↔ p ∈ x.posts s ∨ p ∈ x.queue s ∨ x.in_flight s = some p := by
  simp [Net.pending]

omit [DecidableEq U] in
/-- A reply adds a receipt to the posts or to the queue. -/
theorem reply_eq (s : S) (i : I) (u : U) (r : Reply S) : x.reply s i u r =
    { x with
      posts := (x.reply s i u r).posts
      queue := (x.reply s i u r).queue
      receipts := (x.reply s i u r).receipts } := by
  cases r <;> rfl

omit [DecidableEq U] in
theorem mem_reply_posts {s t : S} {i : I} {u : U} {r : Reply S} {p : Packet U I} :
    p ∈ (x.reply s i u r).posts t ↔ p ∈ x.posts t ∨ r = .post t ∧ p = .receipt i u := by
  cases r with
  | post t' => simp [Net.reply, Net.post, eq_comm]
  | _ => simp [Net.reply, Net.push]

omit [DecidableEq U] in
theorem mem_reply_queue {s t : S} {i : I} {u : U} {r : Reply S} {p : Packet U I} :
    p ∈ (x.reply s i u r).queue t ↔ p ∈ x.queue t ∨ r = .push ∧ t = s ∧ p = .receipt i u := by
  cases r with
  | push => simp [Net.reply, Net.push]
  | _ => simp [Net.reply, Net.post]

/-- What is still to be written stays so, until it is written or its write fails. -/
theorem pending_of_step {t : S} {p : Packet U I} (h : step no sender x m = some x')
    (hp : p ∈ x.pending t) :
    p ∈ x'.pending t ∨ p ∈ x'.written t ∨ m = .fail t ∧ x.in_flight t = some p ∧ p ∈ x'.lost t := by
  rw [mem_pending] at hp
  rw [mem_pending]
  cases step_cases h with
  | flush _ _ =>
    simp only [Net.flush, mem_append_at]
    tauto
  | deliver _ _ =>
    simp only [Net.served]
    rw [reply_eq]
    simp only [mem_reply_posts, mem_reply_queue, Net.post, mem_append_at]
    tauto
  | post_notice =>
    simp only [Net.post, mem_append_at]
    tauto
  | push_notice =>
    simp only [Net.push, mem_append_at]
    tauto
  | take hq =>
    simp only [Net.take, mem_append_at, Function.update_apply]
    grind
  | next hf hq =>
    simp only [Net.next, Function.update_apply]
    grind
  | wrote hq =>
    simp only [Net.wrote, mem_append_at, Function.update_apply]
    grind
  | fail hq =>
    simp only [Net.fail, mem_append_at, Function.update_apply]
    grind
  | _ => exact .inl hp

theorem written_mono {t : S} {p : Packet U I} (h : step no sender x m = some x')
    (hp : p ∈ x.written t) : p ∈ x'.written t := by
  cases step_cases h with
  | deliver _ _ =>
    simp only [Net.served]
    rw [reply_eq]
    exact hp
  | wrote _ => exact mem_append_at.mpr (.inl hp)
  | _ => exact hp

theorem lost_mono {t : S} {p : Packet U I} (h : step no sender x m = some x')
    (hp : p ∈ x.lost t) : p ∈ x'.lost t := by
  cases step_cases h with
  | deliver _ _ =>
    simp only [Net.served]
    rw [reply_eq]
    exact hp
  | flush _ _ => exact mem_append_at.mpr (.inl hp)
  | fail _ => exact mem_append_at.mpr (.inl hp)
  | _ => exact hp

theorem has_mono {t : S} {p : Packet U I} (h : step no sender x m = some x') (hp : x.Has t p) :
    x'.Has t p := by
  rcases hp with hp | hp | hp
  · rcases pending_of_step h hp with hp | hp | ⟨_, _, hp⟩
    · exact .inl hp
    · exact .inr (.inl hp)
    · exact .inr (.inr hp)
  · exact .inr (.inl (written_mono h hp))
  · exact .inr (.inr (lost_mono h hp))

theorem gets_of_has {t : S} {p : Packet U I} (h : step no sender x m = some x')
    (hp : x'.Has t p) : x.Has t p ∨ Gets x t m p := by
  unfold Net.Has at *
  rw [mem_pending] at *
  cases step_cases h with
  | @flush s n _ _ =>
    have hgets : ∀ e, (e ∈ (x.offline (x.owner s)).reverse.take n ∨
        e ∈ (x.offline (x.owner s)).reverse.drop n) → Gets x s (.flush s n) e.packet := by
      intro e he
      have hmem := List.mem_reverse.mp (he.elim List.mem_of_mem_take List.mem_of_mem_drop)
      cases e with
      | message i => exact .flush (mem_mail.mpr hmem)
      | notice => exact .flush_notice
    simp only [Net.flush, mem_append_at, List.mem_map] at hp
    rcases hp with (hp | (hp | ⟨rfl, e, he, rfl⟩) | hp) | hp | (hp | ⟨rfl, e, he, rfl⟩)
    · tauto
    · tauto
    · exact .inr (hgets e (.inl he))
    · tauto
    · tauto
    · tauto
    · exact .inr (hgets e (.inr he))
  | @deliver s r i u us t' hs ht =>
    simp only [Net.served] at hp
    rw [reply_eq] at hp
    simp only [mem_reply_posts, mem_reply_queue, Net.post, mem_append_at, List.mem_singleton] at hp
    rcases hp with (((hp | ⟨rfl, rfl⟩) | ⟨rfl, rfl⟩) | (hp | ⟨rfl, rfl, rfl⟩) | hp) | hp | hp
    · tauto
    · exact .inr (.deliver hs ht)
    · exact .inr (.receipt hs (.inl rfl))
    · tauto
    · exact .inr (.receipt hs (.inr ⟨rfl, rfl⟩))
    · tauto
    · tauto
    · tauto
  | post_notice =>
    simp only [Net.post, mem_append_at, List.mem_singleton] at hp
    rcases hp with ((hp | ⟨rfl, rfl⟩) | hp) | hp
    · tauto
    · exact .inr .post_notice
    · tauto
    · tauto
  | push_notice =>
    simp only [Net.push, mem_append_at, List.mem_singleton] at hp
    rcases hp with (hp | (hp | ⟨rfl, rfl⟩) | hp) | hp
    · tauto
    · tauto
    · exact .inr .push_notice
    · tauto
    · tauto
  | take hq =>
    simp only [Net.take, mem_append_at, Function.update_apply] at hp
    grind
  | next hf hq =>
    simp only [Net.next, Function.update_apply] at hp
    grind
  | wrote hq =>
    simp only [Net.wrote, mem_append_at, Function.update_apply] at hp
    grind
  | fail hq =>
    simp only [Net.fail, mem_append_at, Function.update_apply] at hp
    grind
  | _ => exact .inl hp

/-- A session changes its owner only when it is admitted. -/
theorem owner_of_step (h : step no sender x m = some x') (t : S) :
    x'.owner t = x.owner t ∨ x.stage t = .fresh ∧ ∃ u, m = .join t u := by
  cases step_cases h with
  | @join s u hs =>
    by_cases hts : t = s
    · subst hts
      exact .inr ⟨hs, u, rfl⟩
    · exact .inl (Function.update_of_ne hts _ _)
  | @deliver s r i u us t' _ _ =>
    left
    cases r <;> rfl
  | _ => exact .inl rfl

/-- The stage of a session only rises. -/
theorem stage_of_step (h : step no sender x m = some x') (t : S) (ht : x'.stage t = .fresh) :
    x.stage t = .fresh := by
  cases step_cases h with
  | join _ =>
    simp only [Net.join, Function.update_apply] at ht
    split at ht
    · exact absurd ht (by decide)
    · exact ht
  | flush _ _ =>
    simp only [Net.flush, Function.update_apply] at ht
    split at ht
    · exact absurd ht (by decide)
    · exact ht
  | @deliver s r i u us t' _ _ => cases r <;> exact ht
  | _ => exact ht

theorem registry_of_step (h : step no sender x m = some x') {u : U} {t : S}
    (ht : x'.registry u = some t) : x.registry u = some t ∨ m = .join t u := by
  cases step_cases h with
  | @join s v hs =>
    simp only [Net.join, Function.update_apply] at ht
    split at ht
    · rename_i huv
      obtain rfl : s = t := Option.some.inj ht
      exact .inr (huv ▸ rfl)
    · exact .inl ht
  | @forget v =>
    simp only [Function.update_apply] at ht
    split at ht
    · simp at ht
    · exact .inl ht
  | @deliver s r i v us t' _ _ =>
    left
    cases r <;> exact ht
  | _ => exact .inl ht

/-- What is being sent after a move: as before, one user less, or a new message. -/
theorem sending_of_step (h : step no sender x m = some x') {t : S} {i : I} {us : List U}
    (ht : x'.sending t = some (i, us)) :
    x.sending t = some (i, us) ∨ (∃ u, x.sending t = some (i, u :: us) ∧ Serves x m u i) ∨
      m = .start_send t i us := by
  cases step_cases h with
  | @start_send s j vs _ _ _ _ _ =>
    simp only [Net.start_send, Function.update_apply] at ht
    split at ht
    · rename_i hts
      obtain ⟨rfl, rfl⟩ := Prod.mk.inj (Option.some.inj ht)
      exact .inr (.inr (hts ▸ rfl))
    · exact .inl ht
  | @deliver s r j v vs t' hs _ =>
    have ht' : Function.update x.sending s (some (j, vs)) t = some (i, us) := by
      cases r <;> exact ht
    rw [Function.update_apply] at ht'
    split at ht'
    · rename_i hts
      obtain ⟨rfl, rfl⟩ := Prod.mk.inj (Option.some.inj ht')
      exact .inr (.inl ⟨v, hts ▸ hs, s, _, hs, .inr ⟨r, rfl⟩⟩)
    · exact .inl ht'
  | @store s j v vs hs =>
    simp only [Net.served, Net.store, Function.update_apply] at ht
    split at ht
    · rename_i hts
      obtain ⟨rfl, rfl⟩ := Prod.mk.inj (Option.some.inj ht)
      exact .inr (.inl ⟨v, hts ▸ hs, s, _, hs, .inl rfl⟩)
    · exact .inl ht
  | @end_send s j hs =>
    simp only [Function.update_apply] at ht
    split at ht
    · simp at ht
    · exact .inl ht
  | _ => exact .inl ht

theorem offline_of_step (h : step no sender x m = some x') {u : U} {e : Entry I}
    (hj : e ∈ x'.offline u) :
    e ∈ x.offline u ∨ (∃ s i us, x.sending s = some (i, u :: us) ∧ e = .message i ∧ m = .store s) ∨
      e = .notice ∧ m = .store_notice u := by
  cases step_cases h with
  | flush _ _ =>
    simp only [Net.flush, Function.update_apply] at hj
    split at hj
    · simp at hj
    · exact .inl hj
  | @store s i v us hs =>
    simp only [Net.served, Net.store, Function.update_apply] at hj
    split at hj
    · rename_i huv
      subst huv
      rcases List.mem_cons.mp hj with rfl | hj
      · exact .inr (.inl ⟨s, i, us, hs, rfl, rfl⟩)
      · exact .inl hj
    · exact .inl hj
  | @store_notice v =>
    simp only [Net.store, Function.update_apply] at hj
    split at hj
    · rename_i huv
      subst huv
      rcases List.mem_cons.mp hj with rfl | hj
      · exact .inr (.inr ⟨rfl, rfl⟩)
      · exact .inl hj
    · exact .inl hj
  | @deliver s r i v us t _ _ =>
    left
    cases r <;> exact hj
  | _ => exact .inl hj

theorem mail_of_step (h : step no sender x m = some x') {u : U} {j : I} (hj : j ∈ x'.mail u) :
    j ∈ x.mail u ∨ ∃ s us, x.sending s = some (j, u :: us) ∧ m = .store s := by
  rcases offline_of_step h (mem_mail.mp hj) with hj | ⟨s, i, us, hs, hji, rfl⟩ | ⟨hj, _⟩
  · exact .inl (mem_mail.mpr hj)
  · obtain rfl : j = i := by simpa using hji
    exact .inr ⟨s, us, hs, rfl⟩
  · cases hj

/-- A message leaves a mailbox only for the queue of the session that empties it, or is lost
there. -/
theorem flushed_of_step (h : step no sender x m = some x') {u : U} {j : I}
    (hj : j ∈ x.mail u) (hj' : j ∉ x'.mail u) :
    ∃ s n, m = .flush s n ∧ x.owner s = u ∧ x.active s ∧
      (.message j ∈ x'.queue s ∨ .message j ∈ x'.lost s ∧ n < (x.offline u).length) := by
  rw [mem_mail] at hj hj'
  cases step_cases h with
  | @flush s n _ ha =>
    by_cases hu : u = x.owner s
    · subst hu
      refine ⟨s, n, rfl, rfl, ha, ?_⟩
      simp only [Net.flush, mem_append_at, message_mem_packets, true_and]
      have hmem : .message j ∈ (x.offline (x.owner s)).reverse.take n ∨
          .message j ∈ (x.offline (x.owner s)).reverse.drop n := by
        rw [← List.mem_append, List.take_append_drop, List.mem_reverse]
        exact hj
      rcases hmem with hm | hm
      · exact .inl (.inr hm)
      · refine .inr ⟨.inr hm, ?_⟩
        have hlen := List.length_pos_of_mem hm
        simp only [List.length_drop, List.length_reverse] at hlen
        omega
    · exact absurd hj (by simpa [Net.flush, hu] using hj')
  | @store s i v us _ =>
    by_cases hu : u = v
    · subst hu
      exact absurd (List.mem_cons_of_mem (.message i) hj)
        (by simpa [Net.served, Net.store] using hj')
    · exact absurd hj (by simpa [Net.served, Net.store, hu] using hj')
  | @store_notice v =>
    by_cases hu : u = v
    · subst hu
      exact absurd (List.mem_cons_of_mem .notice hj) (by simpa [Net.store] using hj')
    · exact absurd hj (by simpa [Net.store, hu] using hj')
  | @deliver s r i v us t _ _ =>
    refine absurd hj ?_
    cases r <;> exact hj'
  | _ => exact absurd hj hj'

end Holdings

/-! ## Soundness -/

theorem sound_start (nobody : U) :
    Sound (machine no sender nobody : Machine (Net U S I) (Move U S I)).start where
  owner_eq := by simp [machine]
  stage_ne := by simp [machine]
  idle := by simp [machine]
  clean := by simp [machine, Net.Has, Net.pending]
  nodup := by simp [machine]

theorem sound_step (hx : Sound x) (h : step no sender x m = some x') : Sound x' where
  owner_eq := by
    intro u t ht
    rcases registry_of_step h ht with ht' | rfl
    · rcases owner_of_step h t with ho | ⟨hf, _⟩
      · exact ho.trans (hx.owner_eq u t ht')
      · exact absurd hf (hx.stage_ne u t ht')
    · cases step_cases h with
      | join _ => simp [Net.join]
  stage_ne := by
    intro u t ht hf
    rcases registry_of_step h ht with ht' | rfl
    · exact hx.stage_ne u t ht' (stage_of_step h t hf)
    · cases step_cases h with
      | join _ => simp [Net.join] at hf
  idle := by
    intro s hf
    have hfresh := stage_of_step h s hf
    by_contra hs
    obtain ⟨⟨i, us⟩, hs⟩ := Option.ne_none_iff_exists'.mp hs
    rcases sending_of_step h hs with hs' | ⟨u, hs', _⟩ | rfl
    · simp [hx.idle s hfresh] at hs'
    · simp [hx.idle s hfresh] at hs'
    · cases step_cases h with
      | start_send hne _ _ _ _ => exact hne hfresh
  clean := by
    intro s hf i hi
    have hfresh := stage_of_step h s hf
    rcases gets_of_has h hi with hi' | hi'
    · exact hx.clean s hfresh i hi'
    · cases hi' with
      | flush _ =>
        cases step_cases h with
        | flush hs _ => exact hs hfresh
      | deliver _ ht => exact hx.stage_ne _ _ ht hfresh
  nodup := by
    intro s i us hs
    rcases sending_of_step h hs with hs' | ⟨u, hs', _⟩ | rfl
    · exact hx.nodup s i us hs'
    · exact (List.nodup_cons.mp (hx.nodup s i _ hs')).2
    · cases step_cases h with
      | start_send _ _ _ _ hd => exact hd

/-- The owner of a session that has a message does not change. -/
theorem owner_of_has (hx : Sound x) (h : step no sender x m = some x') {t : S} {i : I}
    (hi : x.Has t (.message i)) : x'.owner t = x.owner t := by
  rcases owner_of_step h t with ho | ⟨hf, _⟩
  · exact ho
  · exact absurd hi (hx.clean t hf i)

/-- A user gets hold of no message but the one that he is served with. -/
theorem held_of_step (hx : Sound x) (h : step no sender x m = some x') {u : U} {j : I}
    (hj : x'.Held u j) : x.Held u j ∨ Serves x m u j := by
  rcases hj with hj | ⟨t, rfl, hj⟩
  · rcases mail_of_step h hj with hj | ⟨s, us, hs, rfl⟩
    · exact .inl (.inl hj)
    · exact .inr ⟨s, us, hs, .inl rfl⟩
  · rcases gets_of_has h hj with hj' | hj'
    · exact .inl (.inr ⟨t, (owner_of_has hx h hj').symm, hj'⟩)
    · rcases owner_of_step h t with ho | ⟨hf, u, rfl⟩
      · rw [ho]
        cases hj' with
        | flush hm => exact .inl (.inl hm)
        | @deliver s r i v us hs ht =>
          rw [hx.owner_eq v t ht]
          exact .inr ⟨s, us, hs, .inr ⟨r, rfl⟩⟩
      · cases hj'

end store_forward
