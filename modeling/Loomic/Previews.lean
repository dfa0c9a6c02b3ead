-- The preview of a message in the list of conversations: each of the four send
-- paths writes the first 128 bytes of the content to a column of text, and
-- Postgres takes only UTF-8. The cut may fall inside a character.
import Loomic.Routing
import Loomic.WebSocketTexts

open loomic.database loomic.frame loomic.json loomic.routing loomic.websocket_texts machines

namespace loomic.previews

/-! ## Cutting UTF-8 -/

/-- What is cut off starts with a character. -/
def CutsBetween (content : Bytes) (k : Nat) : Prop := ∀ b ∈ content[k]?, b.IsUTF8FirstByte

theorem is_utf8_iff (content : Bytes) :
    is_utf8 content ↔ (ByteArray.mk content.toArray).IsValidUTF8 :=
  ByteArray.validateUTF8_eq_true_iff

theorem is_utf8_take {content : Bytes} (h : is_utf8 content) (k : Nat) :
    is_utf8 (content.take k) ↔ CutsBetween content k := by
  unfold CutsBetween
  rcases Nat.lt_or_ge k content.length with hk | hk
  · let s : String :=
      String.ofByteArray (ByteArray.mk content.toArray) ((is_utf8_iff content).mp h)
    have hlt : (⟨k⟩ : String.Pos.Raw) < s.rawEndPos := hk
    have hne : (⟨k⟩ : String.Pos.Raw) ≠ s.rawEndPos := by
      intro heq
      rw [← heq] at hlt
      exact Nat.lt_irrefl k hlt
    have hget : s.getUTF8Byte ⟨k⟩ hlt = content[k] := rfl
    have hextract : s.toByteArray.extract 0 k = ByteArray.mk (content.take k).toArray := by
      apply ByteArray.ext
      simp [s]
    calc is_utf8 (content.take k)
        ↔ (⟨k⟩ : String.Pos.Raw).IsValid s := by
          rw [is_utf8_iff, ← hextract, String.Pos.Raw.isValid_iff_isValidUTF8_extract_zero]
          exact (and_iff_right (Nat.le_of_lt hlt)).symm
      _ ↔ content[k].IsUTF8FirstByte := by
          rw [String.Pos.Raw.isValid_iff_isUTF8FirstByte, or_iff_right hne, ← hget]
          exact exists_prop_of_true hlt
      _ ↔ ∀ b ∈ content[k]?, b.IsUTF8FirstByte := by
          rw [List.getElem?_eq_getElem hk]
          simp
  · rw [List.take_of_length_le hk, List.getElem?_eq_none hk]
    simp [h]

/-! ## What is written -/

def preview_of : RouteEffect → Option Bytes
  | .update_conv_activity _ _ p => some p
  | _ => none

/-- The previews that updates of the activity write. -/
def written (es : List RouteEffect) : List Bytes := es.filterMap preview_of

/-- One preview is written. It is the front of the content, 128 bytes at most, and text. -/
def TextPreview (content : Bytes) (es : List RouteEffect) : Prop :=
  ∃ p, written es = [p] ∧ p <+: content ∧ p.length ≤ 128 ∧ is_utf8 p

variable {st : Stores} {env : Env st} {user_id : UserId} {message : OutboundMessage}
  {es es' : List RouteEffect} {content p : Bytes}

theorem written_append : written (es ++ es') = written es ++ written es' :=
  List.filterMap_append

theorem written_eq_nil (h : ∀ e ∈ es, preview_of e = none) : written es = [] :=
  List.filterMap_eq_nil_iff.mpr h

theorem written_fan_out {members : List UserId} {visit : Nat → UserId → List RouteEffect}
    (h : ∀ n m, ∀ e ∈ visit n m, preview_of e = none) :
    written (fan_out user_id members visit) = [] := by
  apply written_eq_nil
  intro e he
  obtain ⟨x, _, hx⟩ := List.mem_flatMap.mp he
  exact h x.2 x.1 e hx

theorem visit_writes_none (n : Nat) (m : UserId) :
    ∀ e ∈ Session.visit env user_id message n m, preview_of e = none := by
  unfold Session.visit queue_offline
  intro e he
  split_ifs at he <;> simp only [List.mem_cons, List.not_mem_nil, or_false] at he
  · rcases he with rfl | rfl <;> rfl
  · obtain rfl := he
    rfl
  · rcases he with rfl | rfl <;> rfl

/-- The front of 128 bytes is text exactly when it ends between two characters. -/
theorem textPreview_iff (hutf8 : is_utf8 content) (h : written es = [preview content]) :
    TextPreview content es ↔ CutsBetween content 128 := by
  rw [← is_utf8_take hutf8]
  constructor
  · rintro ⟨p, hp, _, _, htext⟩
    obtain rfl := List.singleton_inj.mp (h.symm.trans hp)
    exact htext
  · intro htext
    exact ⟨preview content, h, List.take_prefix _ _, List.length_take_le _ _, htext⟩

/-! ## The four paths -/

theorem written_tcp (env : Env st) (user_id : UserId) (hdr : FrameHeader) (payload : Bytes) :
    written (Session.route_message env user_id hdr payload) = [preview payload] := by
  unfold Session.route_message
  split
  · rw [written_append, written_fan_out visit_writes_none]
    rfl
  · dsimp only
    rw [written_append, written_eq_nil (visit_writes_none 0 hdr.recipient_id)]
    rfl

theorem written_ws_chat {j : Json} {conv_id : ConvId} {content : String} {recipient_id : UserId}
    (hj : WebSocketSession.request "conv_id" j = some (some (conv_id, content)))
    (ho : env.other_member conv_id user_id = some recipient_id) :
    ∃ es, WebSocketSession.route_message env user_id j = some es ∧
      written es = [preview (bytes content)] := by
  unfold WebSocketSession.route_message
  rw [hj, Option.map_some]
  refine ⟨_, rfl, ?_⟩
  dsimp only
  rw [ho]
  dsimp only
  unfold queue_offline
  split <;> rfl

theorem written_ws_group {j : Json} {group_id : ConvId} {content : String}
    (hj : WebSocketSession.request "group_id" j = some (some (group_id, content))) :
    ∃ es, WebSocketSession.route_group_message env user_id j = some es ∧
      written es = [preview (bytes content)] := by
  unfold WebSocketSession.route_group_message
  rw [hj, Option.map_some]
  refine ⟨_, rfl, ?_⟩
  dsimp only
  rw [written_append, written_append, written_fan_out]
  · rfl
  · intro n m e he
    unfold queue_offline at he
    split at he <;> simp only [List.mem_cons, List.not_mem_nil, or_false] at he
    · obtain rfl := he
      rfl
    · rcases he with rfl | rfl <;> rfl

/-- On each path the preview of a message of text is text exactly when the cut falls between two
characters. -/
theorem the_preview_is_text_iff_no_character_is_cut (st : Stores) (env : Env st)
    (user_id : UserId) :
    (∀ hdr payload, is_utf8 payload →
      (TextPreview payload (Session.route_message env user_id hdr payload) ↔
        CutsBetween payload 128)) ∧
    (∀ j conv_id content recipient_id,
      WebSocketSession.request "conv_id" j = some (some (conv_id, content)) →
      env.other_member conv_id user_id = some recipient_id →
      ∃ es, WebSocketSession.route_message env user_id j = some es ∧
        (TextPreview (bytes content) es ↔ CutsBetween (bytes content) 128)) ∧
    ∀ j group_id content,
      WebSocketSession.request "group_id" j = some (some (group_id, content)) →
      ∃ es, WebSocketSession.route_group_message env user_id j = some es ∧
        (TextPreview (bytes content) es ↔ CutsBetween (bytes content) 128) := by
  refine ⟨?_, ?_, ?_⟩
  · intro hdr payload hutf8
    exact textPreview_iff hutf8 (written_tcp env user_id hdr payload)
  · intro j conv_id content recipient_id hj ho
    obtain ⟨es, hes, hp⟩ := written_ws_chat hj ho
    exact ⟨es, hes, textPreview_iff (is_utf8_bytes content) hp⟩
  · intro j group_id content hj
    obtain ⟨es, hes, hp⟩ := written_ws_group hj
    exact ⟨es, hes, textPreview_iff (is_utf8_bytes content) hp⟩

/-! ## Two messages -/

def friends : Stores := (stores.run two_friends).getD stores.start

theorem a_greeting_is_its_own_preview :
    TextPreview (bytes "hi")
      (Session.route_message (after friends) 5 { recipient_id := 7 } (bytes "hi")) := by
  refine ((the_preview_is_text_iff_no_character_is_cut friends (after friends) 5).1
    { recipient_id := 7 } (bytes "hi") (is_utf8_bytes "hi")).mpr ?_
  rw [bytes_eq_flatMap]
  intro b hb
  cases hb

theorem other_friend : (after friends).other_member 100 5 = some 7 := rfl

/-- 129 bytes, of which the last two are one character. -/
def long_message : String := String.ofList (List.replicate 127 'a' ++ ['é'])

theorem bytes_long_message : bytes long_message = List.replicate 127 0x61 ++ [0xC3, 0xA9] := by
  rw [bytes_eq_flatMap]
  unfold long_message
  rw [String.toList_ofList]
  decide

theorem cuts_long_message : ¬ CutsBetween (bytes long_message) 128 := by
  rw [bytes_long_message]
  intro hcuts
  exact absurd (hcuts 0xA9 (by decide)) (by decide)

def chat_frame (key id_str : String) : Json :=
  .object [(key, .string id_str), ("content", .string long_message)]

theorem long_message_ne_empty : long_message ≠ "" := by
  intro hempty
  have hbytes := bytes_long_message
  rw [hempty, bytes_eq_flatMap] at hbytes
  cases hbytes

theorem request_chat_frame {key : String} {id : ConvId} (hkey : key ≠ "content") {id_str : String}
    (hid : from_chars id_str = some id) :
    WebSocketSession.request key (chat_frame key id_str) = some (some (id, long_message)) := by
  have hkey' : ("content" == key) = false := beq_false_of_ne hkey.symm
  have hname : (chat_frame key id_str).value_string key = some id_str := by
    simp [chat_frame, Json.value_string]
  have hcontent : (chat_frame key id_str).value_string "content" = some long_message := by
    simp [chat_frame, Json.value_string, List.lookup_cons, hkey']
  rw [WebSocketSession.request_eq hname hid hcontent, if_neg long_message_ne_empty]

theorem not_textPreview (h : written es = [preview (bytes long_message)]) :
    ¬ TextPreview (bytes long_message) es := by
  rw [textPreview_iff (is_utf8_bytes long_message) h]
  exact cuts_long_message

/-- On each of the four paths the cut falls inside the last character. -/
theorem a_character_is_cut_in_two :
    is_utf8 (bytes long_message) ∧
      (∀ hdr, ¬ TextPreview (bytes long_message)
        (Session.route_message (after friends) 5 hdr (bytes long_message))) ∧
      (∃ es, WebSocketSession.route_message (after friends) 5 (chat_frame "conv_id" "100") =
          some es ∧ ¬ TextPreview (bytes long_message) es) ∧
      ∃ es, WebSocketSession.route_group_message (after friends) 5 (chat_frame "group_id" "200") =
          some es ∧ ¬ TextPreview (bytes long_message) es := by
  refine ⟨is_utf8_bytes long_message, ?_, ?_, ?_⟩
  · intro hdr
    exact not_textPreview (written_tcp _ _ hdr _)
  · have hj : WebSocketSession.request "conv_id" (chat_frame "conv_id" "100") =
        some (some (100, long_message)) := request_chat_frame (by decide) rfl
    obtain ⟨es, hes, hp⟩ := written_ws_chat hj other_friend
    exact ⟨es, hes, not_textPreview hp⟩
  · have hj : WebSocketSession.request "group_id" (chat_frame "group_id" "200") =
        some (some (200, long_message)) := request_chat_frame (by decide) rfl
    obtain ⟨es, hes, hp⟩ := written_ws_group hj
    exact ⟨es, hes, not_textPreview hp⟩

end loomic.previews
