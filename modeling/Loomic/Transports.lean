-- A group message on its two ways: from a TCP client (the group branch of
-- Session::route_message) and from a browser (route_group_message). The two
-- routines are copies of each other, and only the first sends receipts.
import Loomic.Routing

open loomic.database loomic.frame loomic.json loomic.routing

namespace loomic.transports

/-- A DELIVERED receipt for the sender. -/
def Receipt : RouteEffect → Bool
  | .post_receipt _ _ | .push_receipt _ => true
  | _ => false

/-- The browser's frame has the group and the content. -/
structure Names (j : Json) (group_id : ConvId) (content : String) : Prop where
  group_id : ∃ id_str, j.value_string "group_id" = some id_str ∧ from_chars id_str = some group_id
  content : j.value_string "content" = some content

variable {st : Stores} (env : Env st) (user_id : UserId)

/-- The same message from both clients does the same, in whatever order. -/
def Alike (hdr : FrameHeader) (j : Json) (content : String) : Prop :=
  ∃ es, WebSocketSession.route_group_message env user_id j = some es ∧
    (Session.route_message env user_id hdr (bytes content)).Perm es

/-- No member is online while the sender is found, so there is nobody to tell of a delivery. -/
def NoReceipts (group_id : ConvId) : Prop :=
  ∀ member ∈ (env.members group_id).zipIdx, member.1 ≠ user_id →
    env.online member.2 member.1 = true → env.online member.2 user_id = false

/-! ## The two loops -/

/-- What a browser's message does for one member. -/
def visit (message : OutboundMessage) (n : Nat) (member_id : UserId) : List RouteEffect :=
  if env.online n member_id then [.post_message member_id message]
  else queue_offline member_id message

section Loops

variable {env user_id} {message : OutboundMessage}

/-- A member of a TCP client's message gets what a browser's would, and the sender a receipt. -/
theorem visit_tcp (n : Nat) (member_id : UserId) :
    Session.visit env user_id message n member_id = visit env message n member_id ++
      if env.online n member_id = true ∧ env.online n user_id = true then
        [.post_receipt user_id (delivered_receipt message member_id)]
      else [] := by
  unfold Session.visit visit
  cases env.online n member_id <;> cases env.online n user_id <;> simp

theorem filter_visit (n : Nat) (member_id : UserId) :
    (visit env message n member_id).filter (fun e => !Receipt e) =
      visit env message n member_id := by
  unfold visit queue_offline
  split <;> rfl

/-- Without its receipts the loop of a TCP client's message is the other one. -/
theorem filter_fan_out (members : List UserId) :
    (fan_out user_id members (Session.visit env user_id message)).filter (fun e => !Receipt e) =
      fan_out user_id members (visit env message) := by
  unfold fan_out
  rw [List.filter_flatMap]
  congr 1
  funext ⟨member_id, n⟩
  dsimp only
  rw [visit_tcp, List.filter_append, filter_visit]
  split <;> simp [Receipt]

theorem receipt_visit {n : Nat} {member_id : UserId} :
    (∀ e ∈ Session.visit env user_id message n member_id, Receipt e = false) ↔
      (env.online n member_id = true → env.online n user_id = false) := by
  unfold Session.visit queue_offline
  cases env.online n member_id <;> cases env.online n user_id <;> simp [Receipt]

theorem receipts_fan_out {members : List UserId} :
    (∀ e ∈ fan_out user_id members (Session.visit env user_id message), Receipt e = false) ↔
      ∀ member ∈ members.zipIdx, member.1 ≠ user_id →
        env.online member.2 member.1 = true → env.online member.2 user_id = false := by
  unfold fan_out
  simp only [List.mem_flatMap, List.mem_filter, decide_eq_true_eq]
  constructor
  · intro h member hmember hne
    exact receipt_visit.mp fun e he => h e ⟨member, ⟨hmember, hne⟩, he⟩
  · rintro h e ⟨member, ⟨hmember, hne⟩, he⟩
    exact receipt_visit.mpr (h member hmember hne) e he

theorem no_receipt_visit (members : List UserId) :
    ∀ e ∈ fan_out user_id members (visit env message), Receipt e = false := by
  rw [← filter_fan_out]
  intro e he
  have hnot := (List.mem_filter.mp he).2
  rwa [Bool.not_eq_true'] at hnot

end Loops

/-! ## The two routines -/

section Routines

variable {env user_id} {hdr : FrameHeader} {j : Json} {group_id : ConvId} {content : String}

theorem Names.request_eq (h : Names j group_id content) :
    WebSocketSession.request "group_id" j =
      some (if content = "" then none else some (group_id, content)) := by
  obtain ⟨⟨id_str, hid, hnumber⟩, hcontent⟩ := h
  exact WebSocketSession.request_eq hid hnumber hcontent

theorem route_tcp (hgroup : hdr.is_group = true) (payload : Bytes) :
    Session.route_message env user_id hdr payload =
      fan_out user_id (env.members hdr.recipient_id) (Session.visit env user_id
        (group_message user_id hdr.recipient_id env.msg_id env.ts_ms payload)) ++
      [.store_message (group_message user_id hdr.recipient_id env.msg_id env.ts_ms payload),
        .update_conv_activity hdr.recipient_id true (preview payload)] := by
  unfold Session.route_message
  rw [if_pos hgroup]

theorem route_ws (h : Names j group_id content) (hne : content ≠ "") :
    WebSocketSession.route_group_message env user_id j = some
      (.store_message (group_message user_id group_id env.msg_id env.ts_ms (bytes content)) ::
        (fan_out user_id (env.members group_id) (visit env
          (group_message user_id group_id env.msg_id env.ts_ms (bytes content))) ++
        [.update_conv_activity group_id true (preview (bytes content))])) := by
  unfold WebSocketSession.route_group_message
  rw [h.request_eq, if_neg hne]
  rfl

/-- The two clients' messages do the same exactly when there is a content, and nobody to tell of
a delivery. -/
theorem the_transports_agree_iff_there_are_no_receipts (hgroup : hdr.is_group = true)
    (hname : Names j hdr.recipient_id content) :
    Alike env user_id hdr j content ↔ content ≠ "" ∧ NoReceipts env user_id hdr.recipient_id := by
  unfold Alike NoReceipts
  by_cases hempty : content = ""
  · constructor
    · rintro ⟨es, hes, hperm⟩
      unfold WebSocketSession.route_group_message at hes
      rw [hname.request_eq, if_pos hempty] at hes
      obtain rfl := Option.some.inj hes
      rw [route_tcp hgroup] at hperm
      simp at hperm
    · rintro ⟨hne, _⟩
      exact absurd hempty hne
  rw [route_ws hname hempty, route_tcp hgroup, ← receipts_fan_out]
  constructor
  · rintro ⟨es, hes, hperm⟩
    obtain rfl := Option.some.inj hes
    refine ⟨hempty, fun e he => ?_⟩
    have hmem := hperm.subset (List.mem_append_left _ he)
    rcases List.mem_cons.mp hmem with rfl | hmem
    · rfl
    rcases List.mem_append.mp hmem with hmem | hmem
    · exact no_receipt_visit _ e hmem
    · obtain rfl := List.mem_singleton.mp hmem
      rfl
  · rintro ⟨_, hnone⟩
    refine ⟨_, rfl, ?_⟩
    rw [← filter_fan_out, List.filter_eq_self.mpr fun e he => by rw [hnone e he]; rfl]
    exact List.perm_middle

end Routines

/-! ## A group of two -/

section Examples

def group_header : FrameHeader := { msg_type := 0x01, flags := kFlagIsGroup, recipient_id := 200 }

def group_frame : Json := .object [("content", .string "hi"), ("group_id", .string "200")]

theorem names_group_frame : Names group_frame 200 "hi" :=
  ⟨⟨"200", rfl, by decide⟩, rfl⟩

/-- The members of the group are 5 and 7, and everybody is online or nobody. -/
def two_members (online : Bool) : Env ⟨.empty, fun _ => [5, 7]⟩ where
  smembers_group _ := [5, 7]
  load_group_members_from_pg _ := []
  other_member _ _ := none
  online _ _ := online
  msg_id := 1
  ts_ms := 0
  smembers_mem _ _ h := h
  group_members_mem _ _ h := absurd h List.not_mem_nil
  other_member_mem _ _ _ h := nomatch h

theorem offline_members_get_the_same :
    Alike (two_members false) 5 group_header group_frame "hi" :=
  (the_transports_agree_iff_there_are_no_receipts rfl names_group_frame).mpr
    ⟨by decide, fun _ _ _ _ => rfl⟩

/-- With 7 online, the sender 5 gets a receipt as a TCP client and none as a browser. -/
theorem a_browser_gets_no_receipt :
    ∃ es, WebSocketSession.route_group_message (two_members true) 5 group_frame = some es ∧
      ¬ (Session.route_message (two_members true) 5 group_header (bytes "hi")).Perm es := by
  refine ⟨_, route_ws names_group_frame (by decide), fun h => ?_⟩
  rw [route_tcp rfl] at h
  exact absurd (h.countP_eq Receipt) (by decide)

end Examples

end loomic.transports
