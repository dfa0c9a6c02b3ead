-- The loop that reads the text frames of a browser (WebSocketSession::read_loop
-- with the four coroutines that serve a frame): which frames end it. Only the
-- parse is inside a `try`; a member of the wrong kind throws out of the loop.
import Loomic.Routing

open loomic.database loomic.frame loomic.json loomic.routing

namespace loomic.text_frames

/-! ## The frames -/

/-- What serving a frame does. -/
inductive FrameEffect
  | reset_heartbeat
  | push_pong
  | routed (e : RouteEffect)
  | hdel_unread (user_id : UserId) (conv_id : ConvId)
  | mark_read (user_id : UserId) (conv_id : ConvId)

/-- A text frame, with what the stores answer while it is served. -/
structure TextFrame where
  text : String
  st : Stores
  env : Env st

/-- The conversation that an indicator or a receipt names. The outer `none` is an exception, the
inner one a frame that is dropped. -/
def conversation (j : Json) : Option (Option (ConvId × Bool)) :=
  (j.value_string "conv_id").bind fun conv_id_str => (j.value_bool "is_group").map fun is_group =>
    if conv_id_str = "" then none
    else (from_chars conv_id_str).map fun conv_id => (conv_id, is_group)

/-- What a typing indicator and a READ receipt carry. -/
def indicator (msg_type : MsgType) (user_id : UserId) (conv_id : ConvId) (is_group : Bool) :
    OutboundMessage where
  msg_type := msg_type
  conv_id := conv_id
  sender_id := user_id
  recipient_id := conv_id
  flags := if is_group then kFlagIsGroup else 0

section Serve

variable {st : Stores} (env : Env st) (user_id : UserId)

/-- To the other member, or to the members of the group, who are online. -/
def relay (message : OutboundMessage) (conv_id : ConvId) (is_group : Bool) : List FrameEffect :=
  let post (n : Nat) (member_id : UserId) : List RouteEffect :=
    if env.online n member_id then [.post_message member_id message] else []
  let posts := if is_group then fan_out user_id (env.members conv_id) post
    else match env.other_member conv_id user_id with
      | none => []
      | some peer_id => post 0 peer_id
  posts.map .routed

def route_typing (j : Json) : Option (List FrameEffect) :=
  (conversation j).map fun
    | none => []
    | some (conv_id, is_group) =>
      relay env user_id (indicator .TYPING user_id conv_id is_group) conv_id is_group

def route_read_receipt (j : Json) : Option (List FrameEffect) :=
  (conversation j).map fun
    | none => []
    | some (conv_id, is_group) =>
      [.hdel_unread user_id conv_id, .mark_read user_id conv_id] ++
        relay env user_id (indicator .READ user_id conv_id is_group) conv_id is_group

/-- One turn of the loop on a frame that parses. `none` is an exception. -/
def serve (j : Json) : Option (List FrameEffect) :=
  (j.value_string "type").bind fun type =>
    if type = "ping" then some [.reset_heartbeat, .push_pong]
    else if type = "chat" then
      (WebSocketSession.route_message env user_id j).map (List.map .routed)
    else if type = "group_chat" then
      (WebSocketSession.route_group_message env user_id j).map (List.map .routed)
    else if type = "typing" then route_typing env user_id j
    else if type = "read" then route_read_receipt env user_id j
    else some []

end Serve

/-- The effects of each frame, or `none` when a frame ends the loop. -/
def read_loop (parse : String → Option Json) (user_id : UserId) :
    List TextFrame → Option (List (List FrameEffect))
  | [] => some []
  | frame :: frames =>
    (match parse frame.text with
      | none => some []
      | some j => serve frame.env user_id j).bind fun es =>
      (read_loop parse user_id frames).map (es :: ·)

/-! ## What a frame should be -/

/-- A frame that asks for something: a ping, or one of the four with its target. -/
def Command (j : Json) : Prop :=
  match j.value_string "type" with
  | some "ping" => True
  | some "chat" => ∃ target, WebSocketSession.request "conv_id" j = some (some target)
  | some "group_chat" => ∃ target, WebSocketSession.request "group_id" j = some (some target)
  | some "typing" | some "read" => ∃ target, conversation j = some (some target)
  | _ => False

/-- The loop reads all frames, and does nothing on those that are no command. -/
def Survives (parse : String → Option Json) (user_id : UserId) (frames : List TextFrame) : Prop :=
  ∃ effects, read_loop parse user_id frames = some effects ∧
    List.Forall₂ (fun frame es => (∀ j ∈ parse frame.text, ¬ Command j) → es = []) frames effects

/-- The member of an object, if it has one of the name. -/
def member (key : String) : Json → Option Json
  | .object members => members.lookup key
  | _ => none

def IsObject (j : Json) : Prop := ∃ members, j = .object members

def StringOrAbsent (key : String) (j : Json) : Prop := ∀ v ∈ member key j, ∃ s, v = .string s

def BoolOrAbsent (key : String) (j : Json) : Prop := ∀ v ∈ member key j, ∃ b, v = .bool b

/-- The members of the type of the frame are of the right kinds. -/
def TypedMembers (type : String) (j : Json) : Prop :=
  (type = "chat" → StringOrAbsent "conv_id" j ∧ StringOrAbsent "content" j) ∧
  (type = "group_chat" → StringOrAbsent "group_id" j ∧ StringOrAbsent "content" j) ∧
  (type = "typing" ∨ type = "read" → StringOrAbsent "conv_id" j ∧ BoolOrAbsent "is_group" j)

/-- An object whose type is a string, or absent, and whose members of that type are of the right
kinds, or absent. -/
def WellTyped (j : Json) : Prop :=
  IsObject j ∧ StringOrAbsent "type" j ∧ ∀ type, member "type" j = some (.string type) →
    TypedMembers type j

/-! ## The exceptions of `value` -/

section Value

variable {j : Json} {key : String}

theorem value_string_isSome :
    (j.value_string key).isSome ↔ IsObject j ∧ StringOrAbsent key j := by
  unfold IsObject StringOrAbsent member Json.value_string
  cases j with
  | object members =>
    cases hl : members.lookup key with
    | none => simp [hl]
    | some v => cases v <;> simp [hl]
  | _ => simp

theorem value_bool_isSome :
    (j.value_bool key).isSome ↔ IsObject j ∧ BoolOrAbsent key j := by
  unfold IsObject BoolOrAbsent member Json.value_bool
  cases j with
  | object members =>
    cases hl : members.lookup key with
    | none => simp [hl]
    | some v => cases v <;> simp [hl]
  | _ => simp

/-- The value that is read is the member, or the default. -/
theorem member_of_value_string {s : String} (h : j.value_string key = some s) (hs : s ≠ "") :
    member key j = some (.string s) := by
  unfold Json.value_string at h
  unfold member
  split at h
  · split at h
    · exact absurd (Option.some.inj h).symm hs
    · rename_i hl
      obtain rfl := Option.some.inj h
      exact hl
    · cases h
  · cases h

theorem value_string_of_member {s : String} (h : member key j = some (.string s)) :
    j.value_string key = some s := by
  unfold member at h
  unfold Json.value_string
  split at h
  · simp [h]
  · cases h

theorem request_isSome :
    (WebSocketSession.request key j).isSome ↔
      IsObject j ∧ StringOrAbsent key j ∧ StringOrAbsent "content" j := by
  unfold WebSocketSession.request
  rw [Option.isSome_bind]
  have hkey : (j.value_string key).isSome ↔ IsObject j ∧ StringOrAbsent key j :=
    value_string_isSome
  have hcontent : (j.value_string "content").isSome ↔
      IsObject j ∧ StringOrAbsent "content" j := value_string_isSome
  cases hv : j.value_string key with
  | none =>
    rw [hv] at hkey
    simp only [Option.any_none, Bool.false_eq_true, false_iff]
    rintro ⟨hobj, hs, _⟩
    simpa using hkey.mpr ⟨hobj, hs⟩
  | some s =>
    rw [hv] at hkey
    obtain ⟨hobj, hs⟩ := hkey.mp rfl
    simp [hcontent, hobj, hs]

theorem conversation_isSome :
    (conversation j).isSome ↔
      IsObject j ∧ StringOrAbsent "conv_id" j ∧ BoolOrAbsent "is_group" j := by
  unfold conversation
  rw [Option.isSome_bind]
  have hkey : (j.value_string "conv_id").isSome ↔ IsObject j ∧ StringOrAbsent "conv_id" j :=
    value_string_isSome
  have hgroup : (j.value_bool "is_group").isSome ↔ IsObject j ∧ BoolOrAbsent "is_group" j :=
    value_bool_isSome
  cases hv : j.value_string "conv_id" with
  | none =>
    rw [hv] at hkey
    simp only [Option.any_none, Bool.false_eq_true, false_iff]
    rintro ⟨hobj, hs, _⟩
    simpa using hkey.mpr ⟨hobj, hs⟩
  | some s =>
    rw [hv] at hkey
    obtain ⟨hobj, hs⟩ := hkey.mp rfl
    simp [hgroup, hobj, hs]

end Value

/-! ## The law -/

section Law

variable {st : Stores} {env : Env st} {user_id : UserId} {j : Json}

/-- A frame is served without an exception when its members are of the right kinds. -/
theorem serve_isSome : (serve env user_id j).isSome ↔ WellTyped j := by
  unfold serve WellTyped
  rw [Option.isSome_bind]
  cases htype : j.value_string "type" with
  | none =>
    simp only [Option.any_none, Bool.false_eq_true, false_iff]
    rintro ⟨hobj, hs, _⟩
    have := value_string_isSome.mpr ⟨hobj, hs⟩
    simp [htype] at this
  | some type =>
    obtain ⟨hobj, hs⟩ := value_string_isSome.mp (Option.isSome_iff_exists.mpr ⟨type, htype⟩)
    -- the default, which is no type of a command, is not a member
    have hall : (∀ t, member "type" j = some (.string t) → TypedMembers t j) ↔
        TypedMembers type j := by
      constructor
      · intro h
        by_cases hempty : type = ""
        · subst hempty
          simp [TypedMembers]
        · exact h type (member_of_value_string htype hempty)
      · intro h t ht
        obtain rfl : t = type := Option.some.inj ((value_string_of_member ht).symm.trans htype)
        exact h
    rw [hall]
    simp only [Option.any_some, hobj, hs, true_and]
    unfold TypedMembers
    split_ifs with hping hchat hgroup htyping hread
    · simp [hping]
    · simp [hchat, WebSocketSession.route_message, request_isSome, hobj]
    · simp [hgroup, WebSocketSession.route_group_message, request_isSome, hobj]
    · simp [htyping, route_typing, conversation_isSome, hobj]
    · simp [hread, route_read_receipt, conversation_isSome, hobj]
    · simp [hchat, hgroup, htyping, hread]

/-- A frame that is no command does nothing. -/
theorem serve_of_not_command {es : List FrameEffect} (h : serve env user_id j = some es)
    (hno : ¬ Command j) : es = [] := by
  unfold serve at h
  obtain ⟨type, htype, h⟩ := Option.bind_eq_some_iff.mp h
  unfold Command at hno
  rw [htype] at hno
  have hdropped : ∀ {β : Type} {o : Option (Option β)} {f : Option β → List FrameEffect},
      o.map f = some es → f none = [] → (¬ ∃ target, o = some (some target)) → es = [] := by
    intro β o f ho hf hn
    obtain ⟨a, rfl, rfl⟩ := Option.map_eq_some_iff.mp ho
    cases a with
    | none => exact hf
    | some target => exact absurd ⟨target, rfl⟩ hn
  split_ifs at h with hping hchat hgroup htyping hread
  · subst hping
    exact absurd trivial hno
  · subst hchat
    unfold WebSocketSession.route_message at h
    rw [Option.map_map] at h
    exact hdropped h rfl hno
  · subst hgroup
    unfold WebSocketSession.route_group_message at h
    rw [Option.map_map] at h
    exact hdropped h rfl hno
  · subst htyping
    exact hdropped h rfl hno
  · subst hread
    exact hdropped h rfl hno
  · exact (Option.some.inj h).symm

/-- The loop reads all frames, whatever the stores answer, exactly when each frame is no JSON or
has members of the right kinds. -/
theorem the_loop_survives_iff_frames_are_well_typed (parse : String → Option Json)
    (user_id : UserId) (frames : List TextFrame) :
    Survives parse user_id frames ↔
      ∀ frame ∈ frames, ∀ j ∈ parse frame.text, WellTyped j := by
  unfold Survives
  induction frames with
  | nil => simp [read_loop]
  | cons frame frames ih =>
    rw [List.forall_mem_cons, ← ih]
    constructor
    · rintro ⟨effects, hrun, hall⟩
      obtain ⟨es, hes, hrun⟩ := Option.bind_eq_some_iff.mp hrun
      obtain ⟨rest, hrest, rfl⟩ := Option.map_eq_some_iff.mp hrun
      obtain ⟨_, hall⟩ := List.forall₂_cons.mp hall
      refine ⟨?_, rest, hrest, hall⟩
      intro j hj
      rw [Option.mem_def.mp hj] at hes
      exact serve_isSome.mp (Option.isSome_iff_exists.mpr ⟨es, hes⟩)
    · rintro ⟨htyped, rest, hrest, hall⟩
      unfold read_loop
      cases hparse : parse frame.text with
      | none =>
        refine ⟨[] :: rest, by simp [hrest], List.forall₂_cons.mpr ⟨fun _ => rfl, hall⟩⟩
      | some j =>
        have hserve : (serve frame.env user_id j).isSome := serve_isSome.mpr (htyped j hparse)
        obtain ⟨es, hes⟩ := Option.isSome_iff_exists.mp hserve
        refine ⟨es :: rest, ?_, List.forall₂_cons.mpr ⟨?_, hall⟩⟩
        · simp only [hes, Option.bind_some, hrest, Option.map_some]
        · intro hno
          exact serve_of_not_command hes (hno j hparse)

end Law

/-- The text "[]", which is JSON, but no object. -/
def empty_array : TextFrame := { text := "[]", st := stores.start, env := after stores.start }

theorem an_array_ends_the_loop :
    read_loop (fun _ => some (.array [])) 7 [empty_array] = none ∧
      ¬ Survives (fun _ => some (.array [])) 7 [empty_array] := by
  refine ⟨rfl, ?_⟩
  rintro ⟨effects, h, _⟩
  cases h

end loomic.text_frames
