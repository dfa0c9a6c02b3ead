-- The two ways to mark a conversation as read: POST /conversations/{id}/read
-- (ReceiptsHandler) and the "read" frame of a browser (route_read_receipt). The
-- second one asks for no membership, and finds the other members differently.
import Mathlib.Data.List.Nodup
import Loomic.HttpAnswers
import Loomic.TextFrames

open loomic.auth_handler loomic.database loomic.frame loomic.json loomic.routing coroutines
open loomic.http_server (PathParams)

namespace loomic.read_marks

/-! ## The stores and the sessions -/

/-- The stores with their primary keys, and the sessions that the registry finds. -/
structure World where
  st : Stores
  online : UserId → Bool
  conv_members_key : st.pg.conv_members.Nodup
  group_members_key : (st.pg.group_members.map fun row => (row.1, row.2.1)).Nodup
  group_set_key : ∀ g, (st.group_set g).Nodup

/-- `SELECT user_id FROM conv_members WHERE conv_id=$1`. -/
def World.conv_members (w : World) (conv_id : ConvId) : List UserId :=
  (w.st.pg.conv_members.filter (·.1 = conv_id)).map (·.2)

/-- `SELECT user_id FROM group_members WHERE group_id=$1`. -/
def World.group_members (w : World) (group_id : ConvId) : List UserId :=
  (w.st.pg.group_members.filter (·.1 = group_id)).map (·.2.1)

/-- A member of the conversation, or of the group. -/
def World.Member (w : World) (c : ConvId) (v : UserId) : Prop :=
  v ∈ w.conv_members c ∨ v ∈ w.group_members c

/-- The members whom a receipt of `u` is for. -/
def World.Other (w : World) (u : UserId) (c : ConvId) (v : UserId) : Prop :=
  w.Member c v ∧ v ≠ u ∧ w.online v = true

section World

variable {w : World} {c : ConvId} {v : UserId}

theorem mem_conv_members : v ∈ w.conv_members c ↔ w.st.pg.in_conv c v := by
  unfold World.conv_members Postgres.in_conv
  constructor
  · intro h
    obtain ⟨⟨c', v'⟩, hmem, rfl⟩ := List.mem_map.mp h
    obtain ⟨hrow, hc⟩ := List.mem_filter.mp hmem
    obtain rfl := of_decide_eq_true hc
    exact hrow
  · intro h
    exact List.mem_map.mpr ⟨_, List.mem_filter.mpr ⟨h, decide_eq_true rfl⟩, rfl⟩

theorem nodup_conv_members : (w.conv_members c).Nodup := by
  unfold World.conv_members
  apply (w.conv_members_key.filter _).map_on
  intro row₁ h₁ row₂ h₂ hv
  have hc₁ : row₁.1 = c := of_decide_eq_true (List.mem_filter.mp h₁).2
  have hc₂ : row₂.1 = c := of_decide_eq_true (List.mem_filter.mp h₂).2
  exact Prod.ext (hc₁.trans hc₂.symm) hv

theorem nodup_group_members : (w.group_members c).Nodup := by
  unfold World.group_members
  apply ((w.group_members_key.of_map _).filter _).map_on
  intro row₁ h₁ row₂ h₂ hv
  obtain ⟨hrow₁, hc₁⟩ := List.mem_filter.mp h₁
  obtain ⟨hrow₂, hc₂⟩ := List.mem_filter.mp h₂
  have hc : row₁.1 = row₂.1 := (of_decide_eq_true hc₁).trans (of_decide_eq_true hc₂).symm
  exact List.inj_on_of_nodup_map w.group_members_key hrow₁ hrow₂ (Prod.ext hc hv)

end World

/-! ## What a request does -/

inductive ReadEffect
  | hdel_unread (user_id : UserId) (conv_id : ConvId)
  | mark_read (user_id : UserId) (conv_id : ConvId)
  | relay (member_id : UserId) (message : OutboundMessage)
  | something_else

/-- What a call of the handler does. A query does nothing. -/
def of_call : http_handlers.Call → Option ReadEffect
  | .is_conv_member _ _ | .is_group_member _ _ | .select_conv_members _
  | .select_group_members _ | .lookup _ => none
  | .hdel_unread user_id conv_id => some (.hdel_unread user_id conv_id)
  | .mark_read conv_id user_id => some (.mark_read user_id conv_id)
  | .post member_id message => some (.relay member_id message)
  | _ => some .something_else

def of_frame : text_frames.FrameEffect → ReadEffect
  | .hdel_unread user_id conv_id => .hdel_unread user_id conv_id
  | .mark_read user_id conv_id => .mark_read user_id conv_id
  | .routed (.post_message member_id message) => .relay member_id message
  | _ => .something_else

/-- The answers of the stores and the registry. The other calls may get any answer. -/
def World.answer (w : World) (other : ∀ call : http_handlers.Call, call.Answer) :
    (call : http_handlers.Call) → call.Answer
  | .is_conv_member conv_id user_id => some (decide (user_id ∈ w.conv_members conv_id))
  | .is_group_member group_id user_id => some (decide (user_id ∈ w.group_members group_id))
  | .select_conv_members conv_id => some (w.conv_members conv_id)
  | .select_group_members group_id => some (w.group_members group_id)
  | .lookup user_id => w.online user_id
  | call => other call

/-- The same for a frame. `LIMIT 1` may give any of the rows. -/
structure Answered (w : World) (env : Env w.st) : Prop where
  smembers_group : ∀ g, env.smembers_group g = w.st.group_set g
  load_group_members : ∀ g, env.load_group_members_from_pg g = w.group_members g
  online : ∀ n v, env.online n v = w.online v

/-- The POST request by `u` for `c`. -/
structure Posts (services : Services) (req : http_server.Request) (params : PathParams)
    (u : UserId) (c : ConvId) : Prop where
  user : require_auth services req.authorization = some u
  conv_id : ∃ s, params.lookup "id" = some s ∧ from_chars s = some c

def post_effects (services : Services) (req : http_server.Request) (params : PathParams)
    (w : World) (other : ∀ call : http_handlers.Call, call.Answer) : List ReadEffect :=
  ((http_handlers.read_conversation services req params).calls
    fun _ => w.answer other).filterMap of_call

/-- The receipts are marked, and the message goes to the other members who are online. -/
def Marks (w : World) (u : UserId) (c : ConvId) (message : OutboundMessage)
    (es : List ReadEffect) : Prop :=
  ∃ others : List UserId, others.Nodup ∧ (∀ v, v ∈ others ↔ w.Other u c v) ∧
    es = .hdel_unread u c :: .mark_read u c :: others.map (.relay · message)

/-- Both are refused, or both do the same with one message. -/
def SameEffect (w : World) (u : UserId) (c : ConvId) (posted framed : List ReadEffect) : Prop :=
  (¬ w.Member c u ∧ posted = [] ∧ framed = []) ∨
  (w.Member c u ∧ ∃ message : OutboundMessage, message.msg_type = .READ ∧
    message.conv_id = c ∧ message.sender_id = u ∧
    Marks w u c message posted ∧ Marks w u c message framed)

/-- The flag of the frame is right: there are rows of the other kind only. -/
def RightFlag (w : World) (c : ConvId) : Bool → Prop
  | true => w.conv_members c = []
  | false => w.group_members c = []

/-- Nobody is there whom the two ways treat differently. -/
def Undisputed (w : World) (env : Env w.st) (u : UserId) (c : ConvId) : Bool → Prop
  | true => ∀ v ∈ w.group_members c ++ env.members c, v ≠ u → w.online v = false
  | false => ∀ v ∈ w.conv_members c, v ≠ u → w.online v = true → env.other_member c u = some v

/-! ## The request -/

section Request

variable {w : World} {u : UserId} {c : ConvId}
  {other : ∀ call : http_handlers.Call, call.Answer}

/-- The others, by the rows of the conversation, or of the group when there are none. -/
def World.others (w : World) (u : UserId) (c : ConvId) : List UserId :=
  match (w.conv_members c).filter (· ≠ u) with
  | [] => (w.group_members c).filter (· ≠ u)
  | others => others

/-- The loop over the others. -/
theorem calls_relay_read (message : OutboundMessage) (members : List UserId) :
    ((http_handlers.relay_read message http_handlers.ok_reply members).calls
      fun _ => w.answer other).filterMap of_call =
      (members.filter (w.online ·)).map (.relay · message) := by
  induction members with
  | nil => rfl
  | cons v members ih =>
    unfold http_handlers.relay_read
    rw [calls_await]
    change List.filterMap of_call (_ :: (if w.online v = true then _ else _ :
      http_handlers.HttpCoroutine).calls _) = _
    by_cases hon : w.online v = true
    · rw [if_pos hon, List.filter_cons_of_pos (by exact hon), List.map_cons, ← ih]
      rfl
    · rw [if_neg hon, List.filter_cons_of_neg (by exact hon), ← ih]
      rfl

theorem calls_relay_to_others :
    ((http_handlers.relay_to_others c u http_handlers.ok_reply).calls
      fun _ => w.answer other).filterMap of_call =
      ((w.others u c).filter (w.online ·)).map (.relay · (http_handlers.read_message c u)) := by
  unfold http_handlers.relay_to_others World.others
  rw [calls_await]
  change List.filterMap of_call (_ :: (match (w.conv_members c).filter (· ≠ u) with
    | [] => Coroutine.await (.select_group_members c) _
    | others => http_handlers.relay_read _ _ others : http_handlers.HttpCoroutine).calls _) = _
  cases (w.conv_members c).filter (· ≠ u) with
  | nil => exact calls_relay_read _ _
  | cons v others => exact calls_relay_read _ _

theorem calls_of_member {error : String} {k : http_handlers.HttpCoroutine}
    (hmem : w.Member c u) :
    ((http_handlers.when_member c u error k).calls fun _ => w.answer other).filterMap of_call =
      (k.calls fun _ => w.answer other).filterMap of_call := by
  unfold http_handlers.when_member
  rw [calls_await]
  by_cases hconv : u ∈ w.conv_members c
  · have hrow : w.answer other (.is_conv_member c u) = some true :=
      congrArg some (decide_eq_true hconv)
    rw [hrow]
    rfl
  · have hrow : w.answer other (.is_conv_member c u) = some false :=
      congrArg some (decide_eq_false hconv)
    have hgroup : w.answer other (.is_group_member c u) = some true :=
      congrArg some (decide_eq_true (hmem.resolve_left hconv))
    rw [hrow, calls_await, tail_constant]
    beta_reduce
    rw [hgroup]
    rfl

theorem calls_of_outsider {error : String} {k : http_handlers.HttpCoroutine}
    (hmem : ¬ w.Member c u) :
    ((http_handlers.when_member c u error k).calls fun _ => w.answer other).filterMap of_call =
      [] := by
  obtain ⟨hconv, hgroup⟩ := not_or.mp hmem
  have hrow : w.answer other (.is_conv_member c u) = some false :=
    congrArg some (decide_eq_false hconv)
  have hgrow : w.answer other (.is_group_member c u) = some false :=
    congrArg some (decide_eq_false hgroup)
  unfold http_handlers.when_member
  rw [calls_await, hrow, calls_await, tail_constant]
  beta_reduce
  rw [hgrow]
  rfl

theorem read_conversation_eq {services : Services} {req : http_server.Request}
    {params : PathParams} (h : Posts services req params u c) :
    http_handlers.read_conversation services req params =
      http_handlers.when_member c u "not a member"
        (.await (.hdel_unread u c) fun _ => .await (.mark_read c u) fun _ =>
          http_handlers.relay_to_others c u http_handlers.ok_reply) := by
  obtain ⟨huser, s, hs, hc⟩ := h
  unfold http_handlers.read_conversation with_user http_handlers.with_conv_id
  rw [huser]
  dsimp only
  rw [hs]
  unfold groups_handler.with_number
  dsimp only
  rw [hc]

theorem post_effects_of_member {services : Services} {req : http_server.Request}
    {params : PathParams} (h : Posts services req params u c) (hmem : w.Member c u) :
    post_effects services req params w other =
      .hdel_unread u c :: .mark_read u c ::
        ((w.others u c).filter (w.online ·)).map (.relay · (http_handlers.read_message c u)) := by
  unfold post_effects
  rw [read_conversation_eq h, calls_of_member hmem, ← @calls_relay_to_others w u c other]
  rfl

theorem post_effects_of_outsider {services : Services} {req : http_server.Request}
    {params : PathParams} (h : Posts services req params u c) (hmem : ¬ w.Member c u) :
    post_effects services req params w other = [] := by
  unfold post_effects
  rw [read_conversation_eq h, calls_of_outsider hmem]

end Request

/-! ## The frame -/

section Frame

variable {w : World} {env : Env w.st} {u : UserId} {c : ConvId} {is_group : Bool} {j : Json}

/-- The members that the frame is relayed to. -/
def recipients (env : Env w.st) (u : UserId) (c : ConvId) : Bool → List UserId
  | true => (env.members c).filter fun v => v ≠ u ∧ w.online v = true
  | false => (env.other_member c u).toList.filter (w.online ·)

/-- A loop whose visits do not depend on the time. -/
theorem fan_out_visit (members : List UserId) (visit : UserId → List RouteEffect) :
    fan_out u members (fun _ v => visit v) = (members.filter (· ≠ u)).flatMap visit := by
  unfold fan_out
  conv_rhs => rw [← List.zipIdx_map_fst 0 members, List.filter_map, List.flatMap_map]
  rfl

theorem flatMap_online (members : List UserId) (message : OutboundMessage) :
    ((members.flatMap fun v => if w.online v = true then [RouteEffect.post_message v message]
      else []).map .routed).map of_frame =
      (members.filter (w.online ·)).map (.relay · message) := by
  induction members with
  | nil => rfl
  | cons v members ih =>
    rw [List.flatMap_cons, List.map_append, List.map_append, ih]
    by_cases hon : w.online v = true
    · rw [if_pos hon, List.filter_cons_of_pos (by exact hon)]
      rfl
    · rw [if_neg hon, List.filter_cons_of_neg (by exact hon)]
      rfl

theorem relay_eq (h : Answered w env) (message : OutboundMessage) :
    (text_frames.relay env u message c is_group).map of_frame =
      (recipients env u c is_group).map (.relay · message) := by
  unfold text_frames.relay
  simp only [h.online]
  cases is_group with
  | true =>
    rw [if_pos rfl, fan_out_visit, flatMap_online, List.filter_filter]
    simp only [recipients, Bool.decide_and, Bool.decide_eq_true, Bool.and_comm]
  | false =>
    rw [if_neg (by decide)]
    unfold recipients
    cases env.other_member c u with
    | none => rfl
    | some v =>
      have hone := flatMap_online (w := w) [v] message
      rw [List.flatMap_cons, List.flatMap_nil, List.append_nil] at hone
      exact hone

theorem frame_effects (h : Answered w env)
    (hj : text_frames.conversation j = some (some (c, is_group))) :
    ∃ es, text_frames.route_read_receipt env u j = some es ∧
      es.map of_frame = .hdel_unread u c :: .mark_read u c ::
        (recipients env u c is_group).map
          (.relay · (text_frames.indicator .READ u c is_group)) := by
  unfold text_frames.route_read_receipt
  rw [hj]
  refine ⟨_, rfl, ?_⟩
  rw [List.map_append, relay_eq h]
  rfl

end Frame

/-! ## When they agree -/

section Agree

variable {w : World} {u : UserId} {c : ConvId}

theorem marks_iff {message sent : OutboundMessage} {members : List UserId}
    (hnodup : members.Nodup) :
    Marks w u c message (.hdel_unread u c :: .mark_read u c :: members.map (.relay · sent)) ↔
      (∀ v ∈ members, sent = message) ∧ ∀ v, v ∈ members ↔ w.Other u c v := by
  constructor
  · rintro ⟨others, _, hothers, heq⟩
    have hmap := (List.cons.inj (List.cons.inj heq).2).2
    have hmem : ∀ v, v ∈ members ↔ v ∈ others := by
      intro v
      have h := congrArg (fun es => ∃ m, ReadEffect.relay v m ∈ es) hmap
      simpa using h
    refine ⟨fun v hv => ?_, fun v => (hmem v).trans (hothers v)⟩
    have hrelay : ReadEffect.relay v sent ∈ others.map (.relay · message) :=
      hmap ▸ List.mem_map_of_mem hv
    obtain ⟨_, _, h⟩ := List.mem_map.mp hrelay
    cases h
    rfl
  · rintro ⟨hsent, hmem⟩
    refine ⟨members, hnodup, hmem, ?_⟩
    rw [List.map_congr_left fun v hv => by rw [hsent v hv]]

theorem mem_others {v : UserId} (h : w.group_members c = [] ∨ w.conv_members c = []) :
    v ∈ w.others u c ↔ w.Member c v ∧ v ≠ u := by
  unfold World.others World.Member
  rcases h with h | h
  · rw [h]
    generalize hf : (w.conv_members c).filter (· ≠ u) = l
    have hmem : v ∈ l ↔ v ∈ w.conv_members c ∧ v ≠ u := by
      rw [← hf, List.mem_filter, decide_eq_true_eq]
    cases l with
    | nil => simpa using hmem
    | cons _ _ => simpa using hmem
  · rw [h, List.filter_nil]
    simp

theorem nodup_others : (w.others u c).Nodup := by
  unfold World.others
  cases hf : (w.conv_members c).filter (· ≠ u) with
  | nil => exact nodup_group_members.filter _
  | cons _ _ =>
    have hnodup := (nodup_conv_members (w := w) (c := c)).filter (· ≠ u)
    rwa [hf] at hnodup

theorem nodup_recipients {env : Env w.st} (h : Answered w env) (is_group : Bool) :
    (recipients env u c is_group).Nodup := by
  unfold recipients
  cases is_group with
  | true =>
    apply List.Nodup.filter
    unfold Env.members
    split
    · exact h.load_group_members c ▸ nodup_group_members
    · exact h.smembers_group c ▸ w.group_set_key c
  | false => exact (List.Nodup.filter _) (by cases env.other_member c u <;> simp)

/-- For a member: the frame reaches the others, and nobody when its message has another flag. -/
theorem same_effect_iff {env : Env w.st} {is_group : Bool} (h : Answered w env)
    (hflag : RightFlag w c is_group) (hmem : w.Member c u) :
    SameEffect w u c
      (.hdel_unread u c :: .mark_read u c ::
        ((w.others u c).filter (w.online ·)).map (.relay · (http_handlers.read_message c u)))
      (.hdel_unread u c :: .mark_read u c :: (recipients env u c is_group).map
        (.relay · (text_frames.indicator .READ u c is_group))) ↔
      (∀ v, v ∈ recipients env u c is_group ↔ w.Other u c v) ∧
        (is_group = true → ∀ v, ¬ w.Other u c v) := by
  have hkind : w.group_members c = [] ∨ w.conv_members c = [] := by
    cases is_group with
    | true => exact .inr hflag
    | false => exact .inl hflag
  have hposted : ∀ v, v ∈ (w.others u c).filter (w.online ·) ↔ w.Other u c v := by
    intro v
    rw [List.mem_filter, mem_others hkind]
    exact and_assoc
  unfold SameEffect
  simp only [hmem, not_true_eq_false, false_and, false_or, true_and,
    marks_iff (nodup_others.filter _), marks_iff (nodup_recipients h is_group)]
  constructor
  · rintro ⟨message, _, _, _, ⟨hsent, _⟩, hframed, hrecipients⟩
    refine ⟨hrecipients, ?_⟩
    rintro rfl v hv
    have hflags := (hsent v ((hposted v).mpr hv)).trans (hframed v ((hrecipients v).mpr hv)).symm
    have hzero : (0 : UInt8) = kFlagIsGroup := congrArg OutboundMessage.flags hflags
    exact absurd hzero (by decide)
  · rintro ⟨hrecipients, hnobody⟩
    refine ⟨http_handlers.read_message c u, rfl, rfl, rfl, ⟨fun _ _ => rfl, hposted⟩, ?_,
      hrecipients⟩
    intro v hv
    cases is_group with
    | true => exact absurd ((hrecipients v).mp hv) (hnobody rfl v)
    | false => rfl

theorem undisputed_iff {env : Env w.st} {is_group : Bool} (hflag : RightFlag w c is_group) :
    ((∀ v, v ∈ recipients env u c is_group ↔ w.Other u c v) ∧
      (is_group = true → ∀ v, ¬ w.Other u c v)) ↔ Undisputed w env u c is_group := by
  cases is_group with
  | true =>
    have hnone : w.conv_members c = [] := hflag
    simp only [Undisputed, recipients, World.Other, World.Member, hnone, List.mem_append,
      List.mem_filter, List.not_mem_nil, false_or, forall_const, decide_eq_true_eq]
    constructor
    · rintro ⟨hrecipients, hnobody⟩ v hv hne
      by_contra hoff
      have hon : w.online v = true := by simpa using hoff
      rcases hv with hv | hv
      · exact hnobody v ⟨hv, hne, hon⟩
      · exact hnobody v ((hrecipients v).mp ⟨hv, hne, hon⟩)
    · intro hoff
      refine ⟨fun v => ⟨?_, ?_⟩, ?_⟩
      · rintro ⟨hv, hne, hon⟩
        exact absurd (hon.symm.trans (hoff v (.inr hv) hne)) (by decide)
      · rintro ⟨hv, hne, hon⟩
        exact absurd (hon.symm.trans (hoff v (.inl hv) hne)) (by decide)
      · rintro v ⟨hv, hne, hon⟩
        exact absurd (hon.symm.trans (hoff v (.inl hv) hne)) (by decide)
  | false =>
    have hnone : w.group_members c = [] := hflag
    simp only [Undisputed, recipients, World.Other, World.Member, hnone, List.mem_filter,
      List.not_mem_nil, or_false, Option.mem_toList, reduceCtorEq,
      false_imp_iff, and_true]
    constructor
    · intro hrecipients v hv hne hon
      exact ((hrecipients v).mpr ⟨hv, hne, hon⟩).1
    · intro hfound v
      constructor
      · rintro ⟨hv, hon⟩
        obtain ⟨hrow, hne⟩ := env.other_member_mem c u v hv
        exact ⟨mem_conv_members.mpr hrow, hne, hon⟩
      · rintro ⟨hv, hne, hon⟩
        exact ⟨hfound v hv hne hon, hon⟩

variable {services : Services} {req : http_server.Request} {params : PathParams} {j : Json}
  {other : ∀ call : http_handlers.Call, call.Answer} {env : Env w.st} {is_group : Bool}

/-- The two ways do the same exactly for a member whose receipt is for nobody the second one
misses or tells with another flag. -/
theorem the_two_ways_agree_iff_nobody_is_disputed (hpost : Posts services req params u c)
    (hj : text_frames.conversation j = some (some (c, is_group))) (henv : Answered w env)
    (hflag : RightFlag w c is_group) :
    (∃ es, text_frames.route_read_receipt env u j = some es ∧
      SameEffect w u c (post_effects services req params w other) (es.map of_frame)) ↔
      w.Member c u ∧ Undisputed w env u c is_group := by
  obtain ⟨framed, hframed, heffects⟩ := frame_effects (u := u) henv hj
  simp only [hframed, Option.some.injEq, exists_eq_left', heffects]
  by_cases hmem : w.Member c u
  · rw [post_effects_of_member hpost hmem, same_effect_iff henv hflag hmem,
      undisputed_iff hflag]
    exact (and_iff_right hmem).symm
  · rw [post_effects_of_outsider hpost hmem]
    constructor
    · rintro (⟨_, _, hno⟩ | ⟨hin, _⟩)
      · exact absurd hno (List.cons_ne_nil _ _)
      · exact absurd hin hmem
    · rintro ⟨hin, _⟩
      exact absurd hin hmem

end Agree

/-! ## Two friends and a stranger -/

section Examples

/-- The conversation 100 of 5 and 7, who are online. -/
def friends : World where
  st := ⟨{ Postgres.empty with conv_members := [(100, 5), (100, 7)] }, fun _ => []⟩
  online v := v = 5 ∨ v = 7
  conv_members_key := by decide
  group_members_key := by decide
  group_set_key _ := List.nodup_nil

/-- The answers to the frame. -/
def friends_env : Env friends.st :=
  { after friends.st with online := fun _ v => friends.online v }

theorem answered_friends : Answered friends friends_env :=
  ⟨fun _ => rfl, fun _ => rfl, fun _ _ => rfl⟩

/-- The tokens are the names of 5 and 9. -/
def tokens : Services where
  verify token := if token = "five" then some 5 else if token = "nine" then some 9 else none
  issue _ := ""
  parse _ := none

def read_request (token : String) : http_server.Request :=
  { method := .post, target := "/conversations/100/read", authorization := "Bearer " ++ token }

def read_frame : Json := .object [("conv_id", .string "100"), ("type", .string "read")]

theorem read_frame_names_the_conversation :
    text_frames.conversation read_frame = some (some (100, false)) := by decide

theorem posts_five : Posts tokens (read_request "five") [("id", "100")] 5 100 :=
  ⟨by decide, "100", rfl, by decide⟩

example : Posts tokens (read_request "nine") [("id", "100")] 9 100 :=
  ⟨by decide, "100", rfl, by decide⟩

theorem a_friend_reads_both_ways :
    ∃ es, text_frames.route_read_receipt friends_env 5 read_frame = some es ∧
      SameEffect friends 5 100
        (post_effects tokens (read_request "five") [("id", "100")] friends
          (http_answers.failing 0))
        (es.map of_frame) :=
  (the_two_ways_agree_iff_nobody_is_disputed posts_five read_frame_names_the_conversation
    answered_friends rfl).mpr ⟨.inl (by decide), fun v hv => by revert hv v; decide⟩

/-- The frame of 9, who is no member, marks the conversation as read, and tells a member of it. -/
theorem a_stranger_reads_by_a_frame :
    ∃ es, text_frames.route_read_receipt friends_env 9 read_frame = some es ∧
      ¬ SameEffect friends 9 100
        (post_effects tokens (read_request "nine") [("id", "100")] friends
          (http_answers.failing 0))
        (es.map of_frame) := by
  obtain ⟨es, hes, heffects⟩ := frame_effects (u := 9) answered_friends
    read_frame_names_the_conversation
  refine ⟨es, hes, ?_⟩
  rw [heffects]
  rintro (⟨_, _, hno⟩ | ⟨hin, _⟩)
  · exact absurd hno (List.cons_ne_nil _ _)
  · exact absurd hin (not_or.mpr ⟨by decide, by decide⟩)

end Examples

end loomic.read_marks
