-- Who is given a copy of a chat message. In a group, both fan-out loops give
-- one to each member but the sender, live or by the offline queue. In a
-- conversation, WebSocketSession::route_message asks for one other member.
import Loomic.Routing

open loomic.database loomic.frame loomic.json loomic.routing machines

namespace loomic.fan_out

/-! ## Copies -/

/-- The effect gives the user a message, live or in the offline queue. -/
def gives (u : UserId) : RouteEffect → Bool
  | .post_message v _ => v = u
  | .lpush v _ => v = u
  | _ => false

def copies (u : UserId) (es : List RouteEffect) : List RouteEffect := es.filter (gives u)

/-- Increments and queued copies of the message go together. -/
def Matched (message : OutboundMessage) (es : List RouteEffect) : Prop :=
  ∀ u c, es.count (.hincrby_unread u c) =
    if c = message.conv_id then es.count (.lpush u message) else 0

/-- Who is listed and is not the sender has one copy, live or queued, and nobody else has one. The
unread counter of the group is incremented for each copy that is queued, and no other is. -/
structure Partition (user_id : UserId) (members : List UserId) (message : OutboundMessage)
    (es : List RouteEffect) : Prop where
  listed : ∀ u ∈ members, u ≠ user_id →
    copies u es = [.post_message u message] ∨ copies u es = [.lpush u message]
  others : ∀ u, u = user_id ∨ u ∉ members → copies u es = []
  unread : Matched message es

/-- The effect is about no copy and no counter. -/
def quiet : RouteEffect → Bool
  | .post_message _ _ | .lpush _ _ | .hincrby_unread _ _ => false
  | _ => true

variable {st : Stores} {env : Env st} {u user_id : UserId} {message : OutboundMessage}
  {es es' : List RouteEffect} {visit : Nat → UserId → List RouteEffect}

theorem copies_append : copies u (es ++ es') = copies u es ++ copies u es' :=
  List.filter_append _ _

theorem copies_of_quiet (h : ∀ e ∈ es, quiet e) : copies u es = [] := by
  apply List.filter_eq_nil_iff.mpr
  intro e he hgives
  have hquiet := h e he
  cases e <;> simp [quiet, gives] at hquiet hgives

/-! ## The unread counters -/

theorem matched_append (h : Matched message es) (h' : Matched message es') :
    Matched message (es ++ es') := by
  intro u c
  rw [List.count_append, List.count_append, h u c, h' u c]
  split <;> rfl

theorem matched_flatMap {α : Type} {l : List α} {f : α → List RouteEffect}
    (h : ∀ x ∈ l, Matched message (f x)) : Matched message (l.flatMap f) := by
  induction l with
  | nil =>
    intro u c
    simp
  | cons x l ih =>
    rw [List.forall_mem_cons] at h
    rw [List.flatMap_cons]
    exact matched_append h.1 (ih h.2)

theorem matched_of_quiet (h : ∀ e ∈ es, quiet e) : Matched message es := by
  intro u c
  have hincr : RouteEffect.hincrby_unread u c ∉ es := fun hmem => Bool.false_ne_true (h _ hmem)
  have hlpush : RouteEffect.lpush u message ∉ es := fun hmem => Bool.false_ne_true (h _ hmem)
  rw [List.count_eq_zero_of_not_mem hincr, List.count_eq_zero_of_not_mem hlpush, ite_self]

theorem matched_post (m : UserId) : Matched message [.post_message m message] := by
  intro u c
  simp

theorem matched_queue_offline (m : UserId) : Matched message (queue_offline m message) := by
  intro u c
  unfold queue_offline
  by_cases hm : m = u <;> by_cases hc : c = message.conv_id <;>
    simp [hm, hc, eq_comm]

/-! ## One visit -/

/-- The visit of a member in a fan-out loop: with the receipts that follow a live message. -/
def visit_with (env : Env st) (message : OutboundMessage)
    (receipts : Nat → UserId → List RouteEffect) (n : Nat) (member_id : UserId) :
    List RouteEffect :=
  if env.online n member_id then .post_message member_id message :: receipts n member_id
  else queue_offline member_id message

section Visit

variable {receipts : Nat → UserId → List RouteEffect}
  (hreceipts : ∀ n m, ∀ e ∈ receipts n m, quiet e)

include hreceipts

theorem copies_visit (n : Nat) (m : UserId) :
    copies u (visit_with env message receipts n m) =
      if m = u then
        [if env.online n m then .post_message m message else .lpush m message]
      else [] := by
  have hquiet : copies u (receipts n m) = [] := copies_of_quiet (hreceipts n m)
  unfold visit_with
  by_cases honline : env.online n m
  · rw [if_pos honline, if_pos honline, ← List.singleton_append, copies_append, hquiet]
    by_cases hm : m = u <;> simp [copies, gives, hm]
  · rw [if_neg honline, if_neg honline]
    unfold queue_offline
    by_cases hm : m = u <;> simp [copies, gives, hm]

theorem matched_visit (n : Nat) (m : UserId) :
    Matched message (visit_with env message receipts n m) := by
  unfold visit_with
  split
  · exact matched_append (matched_post m) (matched_of_quiet (hreceipts n m))
  · exact matched_queue_offline m

end Visit

/-! ## The loop -/

/-- The loop from the `k`-th member on. -/
def visits (user_id : UserId) (visit : Nat → UserId → List RouteEffect) (members : List UserId)
    (k : Nat) : List RouteEffect :=
  ((members.zipIdx k).filter (·.1 ≠ user_id)).flatMap fun (member_id, n) => visit n member_id

@[simp] theorem visits_nil (k : Nat) : visits user_id visit [] k = [] := rfl

theorem visits_cons (m : UserId) (members : List UserId) (k : Nat) :
    visits user_id visit (m :: members) k =
      (if m = user_id then [] else visit k m) ++ visits user_id visit members (k + 1) := by
  unfold visits
  rw [List.zipIdx_cons]
  by_cases hm : m = user_id
  · rw [List.filter_cons_of_neg (by simpa using hm), if_pos hm, List.nil_append]
  · rw [List.filter_cons_of_pos (by simpa using hm), if_neg hm, List.flatMap_cons]

theorem fan_out_eq_visits (members : List UserId) :
    fan_out user_id members visit = visits user_id visit members 0 := rfl

/-- Each visit concerns the member who is visited. -/
def Own (visit : Nat → UserId → List RouteEffect) : Prop :=
  ∀ n m u, m ≠ u → copies u (visit n m) = []

theorem copies_visits_eq_nil (hvisit : Own visit) {members : List UserId}
    (h : ∀ m ∈ members, m ≠ user_id → m ≠ u) (k : Nat) :
    copies u (visits user_id visit members k) = [] := by
  induction members generalizing k with
  | nil => rfl
  | cons m members ih =>
    rw [List.forall_mem_cons] at h
    rw [visits_cons, copies_append, ih h.2]
    split
    · rfl
    · rename_i hm
      rw [hvisit k m u (h.1 hm), List.append_nil]

theorem ne_of_not_mem {members : List UserId} (hu : u ∉ members) :
    ∀ m ∈ members, m ≠ user_id → m ≠ u :=
  fun _ hm _ heq => hu (heq ▸ hm)

theorem copies_visits_of_mem (hvisit : Own visit) {members : List UserId} (hn : members.Nodup)
    (hu : u ∈ members) (hne : u ≠ user_id) (k : Nat) :
    ∃ n, copies u (visits user_id visit members k) = copies u (visit n u) := by
  induction members generalizing k with
  | nil => cases hu
  | cons m members ih =>
    obtain ⟨hm, hn⟩ := List.nodup_cons.mp hn
    rw [visits_cons, copies_append]
    rcases List.mem_cons.mp hu with rfl | hu
    · refine ⟨k, ?_⟩
      rw [if_neg hne, copies_visits_eq_nil hvisit (ne_of_not_mem hm), List.append_nil]
    · obtain ⟨n, hcopies⟩ := ih hn hu (k + 1)
      refine ⟨n, ?_⟩
      have hmu : m ≠ u := fun heq => hm (heq ▸ hu)
      rw [hcopies]
      split
      · rfl
      · rw [hvisit k m u hmu, List.nil_append]

section Loop

variable {receipts : Nat → UserId → List RouteEffect}
  (hreceipts : ∀ n m, ∀ e ∈ receipts n m, quiet e)

include hreceipts

theorem own_visit : Own (visit_with env message receipts) := by
  intro n m u hm
  rw [copies_visit hreceipts, if_neg hm]

/-- What comes before and after the loop gives no copies. -/
theorem partition_fan_out {members : List UserId} (hn : members.Nodup)
    (hes : ∀ e ∈ es, quiet e) (hes' : ∀ e ∈ es', quiet e) :
    Partition user_id members message
      (es ++ fan_out user_id members (visit_with env message receipts) ++ es') := by
  have hcopies : ∀ u,
      copies u (es ++ fan_out user_id members (visit_with env message receipts) ++ es') =
        copies u (visits user_id (visit_with env message receipts) members 0) := by
    intro u
    rw [copies_append, copies_append, copies_of_quiet hes, copies_of_quiet hes', List.append_nil,
      List.nil_append, fan_out_eq_visits]
  constructor
  · intro u hu hne
    obtain ⟨n, hvisit⟩ := copies_visits_of_mem (own_visit hreceipts) hn hu hne 0
    rw [hcopies, hvisit, copies_visit hreceipts, if_pos rfl]
    by_cases honline : env.online n u
    · exact .inl (by rw [if_pos honline])
    · exact .inr (by rw [if_neg honline])
  · intro u hu
    rw [hcopies]
    apply copies_visits_eq_nil (own_visit hreceipts)
    rcases hu with rfl | hu
    · exact fun _ _ hm => hm
    · exact ne_of_not_mem hu
  · refine matched_append (matched_append (matched_of_quiet hes) ?_) (matched_of_quiet hes')
    exact matched_flatMap fun x _ => matched_visit hreceipts x.2 x.1

end Loop

/-! ## Groups -/

/-- Either fan-out loop, whatever the registry answers at each visit. -/
theorem a_group_message_is_dealt_out_once (st : Stores) (env : Env st) (user_id : UserId) :
    (∀ hdr payload, hdr.is_group → (env.members hdr.recipient_id).Nodup →
      Partition user_id (env.members hdr.recipient_id)
        (group_message user_id hdr.recipient_id env.msg_id env.ts_ms payload)
        (Session.route_message env user_id hdr payload)) ∧
    ∀ j group_id content, WebSocketSession.request "group_id" j = some (some (group_id, content)) →
      (env.members group_id).Nodup →
      ∃ es, WebSocketSession.route_group_message env user_id j = some es ∧
        Partition user_id (env.members group_id)
          (group_message user_id group_id env.msg_id env.ts_ms (bytes content)) es := by
  constructor
  · intro hdr payload hg hn
    have hreceipts : ∀ n m, ∀ e ∈ (if env.online n user_id then
        [RouteEffect.post_receipt user_id (delivered_receipt
          (group_message user_id hdr.recipient_id env.msg_id env.ts_ms payload) m)]
        else []), quiet e := by
      intro n m e he
      split at he
      · obtain rfl := List.mem_singleton.mp he
        rfl
      · cases he
    unfold Session.route_message
    rw [if_pos hg]
    exact partition_fan_out hreceipts hn (nofun : ∀ e ∈ [], quiet e) (by simp [quiet])
  · intro j group_id content hj hn
    unfold WebSocketSession.route_group_message
    rw [hj]
    have hnone : ∀ n m, ∀ e ∈ (fun _ _ => [] : Nat → UserId → List RouteEffect) n m, quiet e :=
      nofun
    exact ⟨_, rfl, partition_fan_out hnone hn (by simp [quiet]) (by simp [quiet])⟩

/-- Group 200 of two friends, of whom 7 is offline. -/
theorem the_other_friend_is_given_one_copy :
    ∃ st, stores.run two_friends = some st ∧
      Partition 5 ((after st).members 200) (group_message 5 200 1 0 [1])
        (Session.route_message (after st) 5 { flags := kFlagIsGroup, recipient_id := 200 } [1]) ∧
      ∃ es, WebSocketSession.route_group_message (after st) 5
          (.object [("group_id", .string "200"), ("content", .string "hi")]) = some es ∧
        Partition 5 ((after st).members 200) (group_message 5 200 1 0 (bytes "hi")) es :=
  ⟨_, rfl,
    (a_group_message_is_dealt_out_once _ (after _) 5).1
      { flags := kFlagIsGroup, recipient_id := 200 } [1] rfl (by decide),
    (a_group_message_is_dealt_out_once _ (after _) 5).2 _ 200 "hi" rfl (by decide)⟩

/-! ## Conversations -/

/-- The query answers, and so it finds another member if there is one. -/
def Answers (env : Env st) (conv_id : ConvId) (user_id : UserId) : Prop :=
  (∃ v, st.pg.in_conv conv_id v ∧ v ≠ user_id) → (env.other_member conv_id user_id).isSome

/-- Each other member has exactly one copy, live if the registry finds a session, and nobody else
has one. -/
def EachOnce (env : Env st) (user_id : UserId) (conv_id : ConvId) (content : Bytes)
    (es : List RouteEffect) : Prop :=
  ∀ v, copies v es =
    if st.pg.in_conv conv_id v ∧ v ≠ user_id then
      let message := direct_message user_id v conv_id env.msg_id env.ts_ms content
      [if env.online 0 v then .post_message v message else .lpush v message]
    else []

/-- There is at most one other member. -/
def AtMostOneOther (st : Stores) (user_id : UserId) (conv_id : ConvId) : Prop :=
  ∀ v w, st.pg.in_conv conv_id v → st.pg.in_conv conv_id w → v ≠ user_id → w ≠ user_id → v = w

def NoOther (st : Stores) (user_id : UserId) (conv_id : ConvId) : Prop :=
  ∀ v, st.pg.in_conv conv_id v → v = user_id

variable {conv_id : ConvId}

theorem eachOnce_nil {content : Bytes} :
    EachOnce env user_id conv_id content [] ↔ NoOther st user_id conv_id := by
  unfold EachOnce NoOther
  apply forall_congr'
  intro v
  by_cases hv : st.pg.in_conv conv_id v <;> by_cases hne : v = user_id <;>
    simp [copies, hv, hne]

theorem atMostOneOther_of_noOther (h : NoOther st user_id conv_id) :
    AtMostOneOther st user_id conv_id := by
  intro v w hv _ hne
  exact absurd (h v hv) hne

section Frame

variable {j : Json} {id_str content : String}

/-- What is routed to one recipient. -/
theorem route_message_eq {recipient_id : UserId}
    (hj : WebSocketSession.request "conv_id" j = some (some (conv_id, content)))
    (ho : env.other_member conv_id user_id = some recipient_id) :
    WebSocketSession.route_message env user_id j =
      let message :=
        direct_message user_id recipient_id conv_id env.msg_id env.ts_ms (bytes content)
      some ([.store_message message] ++
        visit_with env message (fun _ member_id =>
          [.push_receipt (delivered_receipt message member_id)]) 0 recipient_id ++
        [.update_conv_activity conv_id false (preview (bytes content))]) := by
  unfold WebSocketSession.route_message
  rw [hj, Option.map_some]
  dsimp only
  rw [ho]
  rfl

theorem copies_route {recipient_id : UserId} {message : OutboundMessage} (v : UserId) :
    copies v ([.store_message message] ++
        visit_with env message (fun _ member_id =>
          [.push_receipt (delivered_receipt message member_id)]) 0 recipient_id ++
        [.update_conv_activity conv_id false (preview (bytes content))]) =
      if recipient_id = v then
        [if env.online 0 recipient_id then .post_message recipient_id message
          else .lpush recipient_id message]
      else [] := by
  have hreceipts : ∀ n m, ∀ e ∈ (fun _ member_id =>
      [.push_receipt (delivered_receipt message member_id)] : Nat → UserId → List RouteEffect) n m,
      quiet e := by
    simp [quiet]
  have hbefore : copies v [.store_message message] = [] := rfl
  have hafter :
      copies v [.update_conv_activity conv_id false (preview (bytes content))] = [] := rfl
  rw [copies_append, copies_append, hbefore, hafter, List.append_nil, List.nil_append,
    copies_visit hreceipts]

/-- The one recipient is each other member when there is no second one. -/
theorem eachOnce_iff_atMostOneOther {recipient_id : UserId}
    (hrow : st.pg.in_conv conv_id recipient_id) (hne : recipient_id ≠ user_id)
    (hes : ∀ v, copies v es =
      if recipient_id = v then
        let message :=
          direct_message user_id recipient_id conv_id env.msg_id env.ts_ms (bytes content)
        [if env.online 0 recipient_id then .post_message recipient_id message
          else .lpush recipient_id message]
      else []) :
    EachOnce env user_id conv_id (bytes content) es ↔ AtMostOneOther st user_id conv_id := by
  constructor
  · intro honce
    -- a second one has no copy
    have hall : ∀ v, st.pg.in_conv conv_id v → v ≠ user_id → recipient_id = v := by
      intro v hv hvne
      by_contra hother
      have hcopies := honce v
      rw [hes v, if_neg hother, if_pos ⟨hv, hvne⟩] at hcopies
      cases hcopies
    intro v w hv hw hvne hwne
    exact (hall v hv hvne).symm.trans (hall w hw hwne)
  · intro hone v
    rw [hes v]
    by_cases hv : recipient_id = v
    · subst hv
      rw [if_pos rfl, if_pos ⟨hrow, hne⟩]
    · rw [if_neg hv, if_neg]
      rintro ⟨hmem, hvne⟩
      exact hv (hone recipient_id v hrow hmem hne hvne)

/-- In a conversation that was created with any members, each other member has one copy of a
message, and nobody else has one, exactly when there is at most one other member. (A frame without
content is no message: it is dropped, which is right only when there is nobody to tell.) -/
theorem each_other_member_has_a_copy_iff_there_is_one (earlier later : List Request)
    (conv_id : ConvId) (creator_id : UserId) (members : List UserId) (st : Stores)
    (hr : stores.run (earlier ++ .create_conversation conv_id creator_id members :: later) =
      some st)
    (env : Env st) (user_id : UserId) (hanswers : Answers env conv_id user_id)
    (hid : j.value_string "conv_id" = some id_str) (hconv : from_chars id_str = some conv_id)
    (hcontent : j.value_string "content" = some content) :
    (∀ v ∈ creator_id :: members, st.pg.in_conv conv_id v) ∧
      (later = [] → ∀ v, st.pg.in_conv conv_id v → v ∈ creator_id :: members) ∧
      ∃ es, WebSocketSession.route_message env user_id j = some es ∧
        (EachOnce env user_id conv_id (bytes content) es ↔
          AtMostOneOther st user_id conv_id ∧ (content ≠ "" ∨ NoOther st user_id conv_id)) := by
  obtain ⟨hmembers, hfirst⟩ := members_of_created hr
  refine ⟨hmembers, hfirst, ?_⟩
  have hj := WebSocketSession.request_eq hid hconv hcontent
  by_cases hempty : content = ""
  · rw [if_pos hempty] at hj
    refine ⟨[], by rw [WebSocketSession.route_message, hj]; rfl, ?_⟩
    rw [eachOnce_nil]
    constructor
    · intro hno
      exact ⟨atMostOneOther_of_noOther hno, .inr hno⟩
    · rintro ⟨_, hne | hno⟩
      · exact absurd hempty hne
      · exact hno
  · rw [if_neg hempty] at hj
    cases ho : env.other_member conv_id user_id with
    | none =>
      have hno : NoOther st user_id conv_id := by
        intro v hv
        by_contra hne
        have hsome := hanswers ⟨v, hv, hne⟩
        rw [ho] at hsome
        cases hsome
      refine ⟨[], ?_, ?_⟩
      · rw [WebSocketSession.route_message, hj, Option.map_some]
        dsimp only
        rw [ho]
      · rw [eachOnce_nil]
        exact iff_of_true hno ⟨atMostOneOther_of_noOther hno, .inl hempty⟩
    | some recipient_id =>
      obtain ⟨hrow, hne⟩ := env.other_member_mem _ _ _ ho
      refine ⟨_, route_message_eq hj ho, ?_⟩
      rw [eachOnce_iff_atMostOneOther hrow hne copies_route]
      exact (and_iff_left (.inl hempty)).symm

end Frame

def greeting_frame : Json := .object [("conv_id", .string "100"), ("content", .string "hi")]

/-- Conversation 100 of 5 and 7. -/
theorem the_one_other_friend_has_a_copy :
    ∃ st, stores.run ([.register 5, .register 7] ++ [.create_conversation 100 5 [7, 7]]) = some st ∧
      ∃ es, WebSocketSession.route_message (after st) 5 greeting_frame = some es ∧
        (EachOnce (after st) 5 100 (bytes "hi") es ↔
          AtMostOneOther st 5 100 ∧ ("hi" ≠ "" ∨ NoOther st 5 100)) := by
  refine ⟨_, rfl, ?_⟩
  exact (each_other_member_has_a_copy_iff_there_is_one [.register 5, .register 7] [] 100 5 [7, 7] _
    rfl (after _) 5 (fun _ => rfl) rfl rfl rfl).2.2

/-- Conversation 100 of 5, 7 and 9: a message of 5 never comes to 9. -/
theorem the_third_friend_has_no_copy :
    ¬ ∀ (earlier later : List Request) (conv_id : ConvId) (creator_id : UserId)
      (members : List UserId) (st : Stores) (env : Env st) (user_id : UserId) (j : Json)
      (id_str content : String), members ≠ [] →
      stores.run (earlier ++ .create_conversation conv_id creator_id members :: later) = some st →
      user_id ∈ creator_id :: members → Answers env conv_id user_id →
      j.value_string "conv_id" = some id_str → from_chars id_str = some conv_id →
      j.value_string "content" = some content →
      ∃ es, WebSocketSession.route_message env user_id j = some es ∧
        EachOnce env user_id conv_id (bytes content) es := by
  intro hall
  obtain ⟨es, hes, honce⟩ := hall [.register 5, .register 7, .register 9] [] 100 5 [7, 9] _
    (after _) 5 greeting_frame "100" "hi" (by decide) rfl (by decide) (fun _ => rfl) rfl rfl rfl
  have hcopies := honce 9
  rw [if_pos (by decide)] at hcopies
  obtain rfl := Option.some.inj hes
  cases hcopies

end loomic.fan_out
