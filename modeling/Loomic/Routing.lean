-- The three ways on which a chat message is routed (Session::route_message,
-- WebSocketSession::route_message and route_group_message), and who is let
-- through: no path asks whether the sender belongs to the target.
import Loomic.Database
import Loomic.Json

open loomic.database loomic.frame loomic.json machines

namespace loomic.routing

/-! ## What the routing asks for, and does -/

/-- The answers that a routing gets while the stores are in the state `st`. A failed query of
Redis counts as an empty set, and one of Postgres as no row. `online n` is the answer of the
registry when the `n`-th member is visited: it changes while the coroutine waits for Redis. -/
structure Env (st : Stores) where
  smembers_group : ConvId → List UserId
  load_group_members_from_pg : ConvId → List UserId
  other_member : ConvId → UserId → Option UserId
  online : Nat → UserId → Bool
  msg_id : MsgId
  ts_ms : Int64
  smembers_mem : ∀ g u, u ∈ smembers_group g → u ∈ st.group_set g
  group_members_mem : ∀ g u, u ∈ load_group_members_from_pg g → st.pg.in_group g u
  other_member_mem : ∀ c u v, other_member c u = some v → st.pg.in_conv c v ∧ v ≠ u

inductive RouteEffect
  | post_message (user_id : UserId) (message : OutboundMessage)
  | post_receipt (user_id : UserId) (receipt : OutboundMessage)
  | push_receipt (receipt : OutboundMessage)
  | lpush (user_id : UserId) (message : OutboundMessage)
  | hincrby_unread (user_id : UserId) (conv_id : ConvId)
  | store_message (message : OutboundMessage)
  | upsert_conv_members (conv_id : ConvId) (user_a user_b : UserId)
  | update_conv_activity (conv_id : ConvId) (is_group : Bool) (preview : Bytes)
  deriving DecidableEq

variable {st : Stores}

/-- The members of a group: Redis first, then Postgres. -/
def Env.members (env : Env st) (group_id : ConvId) : List UserId :=
  if env.smembers_group group_id = [] then env.load_group_members_from_pg group_id
  else env.smembers_group group_id

/-- The loop over the members, which skips the sender. -/
def fan_out (user_id : UserId) (members : List UserId)
    (visit : Nat → UserId → List RouteEffect) : List RouteEffect :=
  (members.zipIdx.filter (·.1 ≠ user_id)).flatMap fun (member_id, n) => visit n member_id

/-- A message for somebody who is not online. -/
def queue_offline (member_id : UserId) (message : OutboundMessage) : List RouteEffect :=
  [.lpush member_id message, .hincrby_unread member_id message.conv_id]

def group_message (user_id : UserId) (group_id : ConvId) (msg_id : MsgId) (ts_ms : Int64)
    (content : Bytes) : OutboundMessage where
  conv_id := group_id
  msg_id := msg_id
  sender_id := user_id
  recipient_id := group_id
  timestamp_ms := ts_ms
  msg_type := .CHAT
  flags := kFlagIsGroup
  content := content

def direct_message (user_id recipient_id : UserId) (conv_id : ConvId) (msg_id : MsgId)
    (ts_ms : Int64) (content : Bytes) : OutboundMessage where
  conv_id := conv_id
  msg_id := msg_id
  sender_id := user_id
  recipient_id := recipient_id
  timestamp_ms := ts_ms
  msg_type := .CHAT
  flags := 0
  content := content

/-- The receipt that a message reached a member. -/
def delivered_receipt (message : OutboundMessage) (member_id : UserId) : OutboundMessage where
  msg_type := .DELIVERED
  msg_id := message.msg_id
  sender_id := member_id
  recipient_id := message.sender_id
  conv_id := message.conv_id
  flags := message.flags

def preview (content : Bytes) : Bytes := content.take 128

/-! ## TCP -/

namespace Session

/-- A session that is found gets the message, and the sender the receipt. -/
def visit (env : Env st) (user_id : UserId) (message : OutboundMessage) (n : Nat)
    (member_id : UserId) : List RouteEffect :=
  if env.online n member_id then
    .post_message member_id message :: (if env.online n user_id then
      [.post_receipt user_id (delivered_receipt message member_id)] else [])
  else queue_offline member_id message

def route_message (env : Env st) (user_id : UserId) (hdr : FrameHeader) (payload : Bytes) :
    List RouteEffect :=
  if hdr.is_group then
    let group_id := hdr.recipient_id
    let message := group_message user_id group_id env.msg_id env.ts_ms payload
    fan_out user_id (env.members group_id) (visit env user_id message) ++
      [.store_message message, .update_conv_activity group_id true (preview payload)]
  else
    let conv_id := min user_id hdr.recipient_id
    let message := direct_message user_id hdr.recipient_id conv_id env.msg_id env.ts_ms payload
    visit env user_id message 0 hdr.recipient_id ++
      [.store_message message, .upsert_conv_members conv_id user_id hdr.recipient_id,
        .update_conv_activity conv_id false (preview payload)]

end Session

/-! ## WebSocket -/

namespace WebSocketSession

/-- The target and the content of a frame. The outer `none` is the exception that a member of
the wrong kind throws, the inner one a frame that is dropped. -/
def request (key : String) (j : Json) : Option (Option (ConvId × String)) :=
  (j.value_string key).bind fun id_str => (j.value_string "content").map fun content =>
    if id_str = "" ∨ content = "" then none
    else (from_chars id_str).map fun id => (id, content)

/-- A frame that names its target. One without content is dropped. -/
theorem request_eq {key : String} {j : Json} {id_str content : String} {id : ConvId}
    (hid : j.value_string key = some id_str) (hnumber : from_chars id_str = some id)
    (hcontent : j.value_string "content" = some content) :
    request key j = some (if content = "" then none else some (id, content)) := by
  have hne : id_str ≠ "" := by
    rintro rfl
    cases hnumber
  unfold request
  rw [hid, hcontent, Option.bind_some, Option.map_some, hnumber]
  simp only [hne, false_or, Option.map_some]

/-- The receipt goes to the session's own write queue. -/
def route_message (env : Env st) (user_id : UserId) (j : Json) : Option (List RouteEffect) :=
  (request "conv_id" j).map fun
    | none => []
    | some (conv_id, content) =>
      match env.other_member conv_id user_id with
      | none => []
      | some recipient_id =>
        let message :=
          direct_message user_id recipient_id conv_id env.msg_id env.ts_ms (bytes content)
        [.store_message message] ++
          (if env.online 0 recipient_id then
            [.post_message recipient_id message,
              .push_receipt (delivered_receipt message recipient_id)]
          else queue_offline recipient_id message) ++
          [.update_conv_activity conv_id false (preview (bytes content))]

/-- No receipts for a group. -/
def route_group_message (env : Env st) (user_id : UserId) (j : Json) :
    Option (List RouteEffect) :=
  (request "group_id" j).map fun
    | none => []
    | some (group_id, content) =>
      let message := group_message user_id group_id env.msg_id env.ts_ms (bytes content)
      [.store_message message] ++
        fan_out user_id (env.members group_id) (fun n member_id =>
          if env.online n member_id then [.post_message member_id message]
          else queue_offline member_id message) ++
        [.update_conv_activity group_id true (preview (bytes content))]

end WebSocketSession

/-! ## Who is served -/

/-- The frames that name a target. -/
inductive ClientFrame
  | tcp_group (hdr : FrameHeader) (is_group : hdr.is_group = true) (payload : Bytes)
  | ws_group_chat (j : Json)
  | ws_chat (j : Json)

/-- What the server does on a frame of the user; nothing when the routing throws. -/
def effects (env : Env st) (user_id : UserId) : ClientFrame → List RouteEffect
  | .tcp_group hdr _ payload => Session.route_message env user_id hdr payload
  | .ws_group_chat j => (WebSocketSession.route_group_message env user_id j).getD []
  | .ws_chat j => (WebSocketSession.route_message env user_id j).getD []

/-- The target that a frame names, if it is well formed. -/
def ClientFrame.target : ClientFrame → Option ConvId
  | .tcp_group hdr _ _ => some hdr.recipient_id
  | .ws_group_chat j => (WebSocketSession.request "group_id" j).join.map (·.1)
  | .ws_chat j => (WebSocketSession.request "conv_id" j).join.map (·.1)

/-- The user has a row for the target. -/
def Member (st : Stores) (user_id : UserId) : ClientFrame → ConvId → Prop
  | .ws_chat _, conv_id => st.pg.in_conv conv_id user_id
  | _, group_id => st.pg.in_group group_id user_id

instance (st : Stores) (user_id : UserId) : ∀ frame id, Decidable (Member st user_id frame id)
  | .tcp_group _ _ _, id => inferInstanceAs (Decidable (st.pg.in_group id user_id))
  | .ws_group_chat _, id => inferInstanceAs (Decidable (st.pg.in_group id user_id))
  | .ws_chat _, id => inferInstanceAs (Decidable (st.pg.in_conv id user_id))

/-- The message is stored, delivered or queued. -/
def Served (es : List RouteEffect) : Prop :=
  ∃ m, .store_message m ∈ es ∨ ∃ u, .post_message u m ∈ es ∨ .lpush u m ∈ es

/-- A sender who is served is a member of the target. -/
def Authorized (env : Env st) (user_id : UserId) (frame : ClientFrame) : Prop :=
  Served (effects env user_id frame) → ∀ id ∈ frame.target, Member st user_id frame id

theorem served_of_store {es : List RouteEffect} {m : OutboundMessage}
    (h : .store_message m ∈ es) : Served es := ⟨m, .inl h⟩

theorem not_served_nil : ¬ Served [] := by simp [Served]

theorem served_tcp_group (env : Env st) (user_id : UserId) (hdr : FrameHeader)
    (hg : hdr.is_group = true) (payload : Bytes) :
    Served (effects env user_id (.tcp_group hdr hg payload)) := by
  refine served_of_store
    (m := group_message user_id hdr.recipient_id env.msg_id env.ts_ms payload) ?_
  simp [effects, Session.route_message, hg]

theorem served_ws_group (env : Env st) (user_id : UserId) (j : Json) :
    Served (effects env user_id (.ws_group_chat j)) ↔
      (ClientFrame.ws_group_chat j).target.isSome := by
  simp only [effects, WebSocketSession.route_group_message, ClientFrame.target]
  rcases WebSocketSession.request "group_id" j with _ | _ | ⟨group_id, content⟩
  · simp [not_served_nil]
  · simp [not_served_nil]
  · simp only [Option.map_some, Option.getD_some, Option.join_some, Option.isSome_some, iff_true]
    exact served_of_store
      (m := group_message user_id group_id env.msg_id env.ts_ms (bytes content)) (by simp)

theorem served_ws_chat (env : Env st) (user_id : UserId) (j : Json) :
    Served (effects env user_id (.ws_chat j)) ↔
      ∃ id ∈ (ClientFrame.ws_chat j).target, (env.other_member id user_id).isSome := by
  simp only [effects, WebSocketSession.route_message, ClientFrame.target]
  rcases WebSocketSession.request "conv_id" j with _ | _ | ⟨conv_id, content⟩
  · simp [not_served_nil]
  · simp [not_served_nil]
  · rcases ho : env.other_member conv_id user_id with _ | recipient_id
    · simp [not_served_nil, ho]
    · simp only [Option.map_some, Option.getD_some, Option.join_some, Option.mem_some_iff,
        exists_eq_left', ho, Option.isSome_some, iff_true]
      exact served_of_store (m := direct_message user_id recipient_id conv_id env.msg_id env.ts_ms
        (bytes content)) (by simp)

/-- The sender of a message that is served belongs to the target only when he does anyway, or
when a WebSocket chat frame finds no other member of the conversation. -/
theorem a_served_sender_is_a_member_iff_every_sender_is (st : Stores) (env : Env st)
    (user_id : UserId) (frame : ClientFrame) :
    Authorized env user_id frame ↔ (∀ id ∈ frame.target, Member st user_id frame id) ∨
      ∃ j, frame = .ws_chat j ∧ ∀ id ∈ frame.target, env.other_member id user_id = none := by
  cases frame with
  | tcp_group hdr hg payload =>
    simp [Authorized, served_tcp_group]
  | ws_group_chat j =>
    simp only [Authorized, served_ws_group, reduceCtorEq, false_and, exists_false, or_false]
    refine ⟨fun h id hid => h (by simp [Option.mem_def.mp hid]) id hid, fun h _ => h⟩
  | ws_chat j =>
    simp only [Authorized, served_ws_chat, ClientFrame.ws_chat.injEq, exists_eq_left']
    rcases (ClientFrame.ws_chat j).target with _ | id
    · simp
    · rcases ho : env.other_member id user_id with _ | v <;> simp [ho]

/-! ## An outsider -/

/-- Users 5 and 7 share a conversation and a group. User 9 belongs to nothing. -/
def two_friends : List Request :=
  [.register 5, .register 7, .register 9, .create_conversation 100 5 [7], .create_group 200 5 [7]]

/-- The stores after the requests, with Postgres and Redis answering. -/
def after (st : Stores) : Env st where
  smembers_group g := st.group_set g
  load_group_members_from_pg g := (st.pg.group_members.filter (·.1 = g)).map (·.2.1)
  other_member c u := ((st.pg.conv_members.filter fun row => row.1 = c ∧ row.2 ≠ u).map (·.2)).head?
  online _ _ := false
  msg_id := 1
  ts_ms := 0
  smembers_mem _ _ h := h
  group_members_mem g u h := by
    obtain ⟨⟨g', u', role⟩, hrow, rfl⟩ := List.mem_map.mp h
    simp only [List.mem_filter, decide_eq_true_eq] at hrow
    exact ⟨role, hrow.2 ▸ hrow.1⟩
  other_member_mem c u v h := by
    obtain ⟨⟨c', v'⟩, hrow, rfl⟩ := List.mem_map.mp (List.mem_of_head? h)
    simp only [List.mem_filter, decide_eq_true_eq] at hrow
    exact ⟨hrow.2.1 ▸ hrow.1, hrow.2.2⟩

/-- A stranger's messages are served on all three paths. -/
theorem an_outsider_is_served :
    ∃ st, stores.run two_friends = some st ∧
      ¬ Authorized (after st) 9 (.tcp_group
        { msg_type := MsgType.CHAT.byte, flags := kFlagIsGroup, recipient_id := 200 } rfl [1]) ∧
      ¬ Authorized (after st) 9 (.ws_group_chat
        (.object [("group_id", .string "200"), ("content", .string "hi")])) ∧
      ¬ Authorized (after st) 9 (.ws_chat
        (.object [("conv_id", .string "100"), ("content", .string "hi")])) := by
  refine ⟨_, rfl, fun h => ?_, fun h => ?_, fun h => ?_⟩
  · exact absurd (h (served_tcp_group _ _ _ _ _) 200 rfl) (by decide)
  · exact absurd (h ((served_ws_group _ _ _).mpr rfl) 200 rfl) (by decide)
  · exact absurd (h ((served_ws_chat _ _ _).mpr ⟨100, rfl, rfl⟩) 100 rfl) (by decide)

end loomic.routing
