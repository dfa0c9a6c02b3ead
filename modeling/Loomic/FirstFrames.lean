-- The order of the frames on a socket of the browser: the token comes first,
-- as the server expects it, when nothing is sent while the session is awaited.
import Loomic.BrowserSocket

open loomic.browser_socket machines

namespace loomic.first_frames

/-! ## The first frame -/

/-- The token is sent first, and once. -/
def AuthFirst (sent : List Frame) : Prop :=
  sent = [] ∨ ∃ rest, sent = .auth :: rest ∧ .auth ∉ rest

/-- Nothing is sent on an open socket before the token is. -/
def AfterAuth (p : Page) : Label → Prop
  | .frame _ => ∀ i ∈ p.socket, ∀ socket ∈ p.sockets[i]?, socket.ready = .open_ → socket.sent ≠ []
  | _ => True

instance decidable_afterAuth (p : Page) : ∀ a, Decidable (AfterAuth p a)
  | .frame _ => inferInstanceAs (Decidable (∀ i ∈ p.socket, ∀ socket ∈ p.sockets[i]?,
      socket.ready = .open_ → socket.sent ≠ []))
  | .run_effect | .cleanup | .sign_out | .opened _ | .authed _ _ | .beat _ | .closed _
  | .error _ _ | .refreshed _ | .fire => .isTrue trivial

/-- The sockets whose session is awaited have sent nothing, and those with an interval have sent
the token, or are closing. -/
structure Greeted (p : Page) : Prop where
  first : ∀ (i : Nat) (socket : Socket), p.sockets[i]? = some socket → AuthFirst socket.sent
  fresh : ∀ (i : Nat) (socket : Socket), p.sockets[i]? = some socket →
    socket.ready = .connecting → socket.sent = []
  nodup : p.awaiting.Nodup
  awaiting : ∀ i ∈ p.awaiting, ∃ socket, p.sockets[i]? = some socket ∧
    socket.ready ≠ .connecting ∧ socket.sent = []
  beating : ∀ k i, (k, i) ∈ p.intervals → ∃ socket, p.sockets[i]? = some socket ∧
    socket.ready ≠ .connecting ∧ (socket.ready = .open_ → socket.sent ≠ [])

section Greeted

variable {p p' : Page} {i j : Nat} {socket : Socket}

/-- A change of a socket that keeps to the order of its frames. -/
structure Mild (f : Socket → Socket) (socket : Socket) : Prop where
  first : AuthFirst socket.sent → AuthFirst (f socket).sent
  fresh : (f socket).ready = .connecting → socket.ready = .connecting
  quiet : (f socket).sent = [] ↔ socket.sent = []
  opens : (f socket).ready = .open_ → socket.ready = .open_

theorem mild_close : Mild Socket.close socket := by
  obtain ⟨run, ready, sent⟩ := socket
  constructor <;> cases ready <;> simp [Socket.close]

theorem mild_closed : Mild (fun socket => { socket with ready := .closed }) socket := by
  constructor <;> simp

theorem authFirst_append {sent : List Frame} {frame : Frame} (h : AuthFirst sent)
    (hsent : sent ≠ []) (hframe : frame ≠ .auth) : AuthFirst (sent ++ [frame]) := by
  obtain ⟨rest, rfl, hrest⟩ := h.resolve_left hsent
  refine .inr ⟨rest ++ [frame], rfl, ?_⟩
  simp [hrest, hframe.symm]

theorem mild_send {frame : Frame} (hframe : frame ≠ .auth)
    (hsent : socket.ready = .open_ → socket.sent ≠ []) : Mild (Socket.send frame) socket := by
  obtain ⟨run, ready, sent⟩ := socket
  cases ready with
  | open_ =>
    refine ⟨fun h => authFirst_append h (hsent rfl) hframe, id, ?_, id⟩
    simpa [Socket.send] using hsent rfl
  | connecting | closing | closed => exact ⟨id, id, Iff.rfl, id⟩

theorem sockets_update_self {f : Socket → Socket} (h : p.sockets[j]? = some socket) :
    (p.update i f).sockets[j]? = some (if i = j then f socket else socket) := by
  unfold Page.update
  dsimp only
  rw [List.getElem?_modify, h]
  rfl

theorem Greeted.update (h : Greeted p) {f : Socket → Socket}
    (hf : ∀ socket, p.sockets[i]? = some socket → Mild f socket) : Greeted (p.update i f) := by
  have hmild : ∀ (j : Nat) (socket : Socket), p.sockets[j]? = some socket →
      Mild (if i = j then f else id) socket := by
    intro j socket hj
    split_ifs with hij
    · subst hij
      exact hf socket hj
    · exact ⟨id, id, Iff.rfl, id⟩
  have hget : ∀ (j : Nat) (socket : Socket), p.sockets[j]? = some socket →
      (p.update i f).sockets[j]? = some ((if i = j then f else id) socket) := by
    intro j socket hj
    rw [sockets_update_self hj]
    split_ifs <;> rfl
  have hold : ∀ (j : Nat) (socket : Socket), (p.update i f).sockets[j]? = some socket → ∃ old,
      p.sockets[j]? = some old ∧ socket = (if i = j then f else id) old := by
    intro j socket hj
    obtain ⟨old, hold, _⟩ := sockets_update hj
    exact ⟨old, hold, Option.some.inj (hj.symm.trans (hget j old hold))⟩
  refine ⟨?_, ?_, h.nodup, ?_, ?_⟩
  · intro j socket hj
    obtain ⟨old, hold, rfl⟩ := hold j socket hj
    exact (hmild j old hold).first (h.first j old hold)
  · intro j socket hj hready
    obtain ⟨old, hold, rfl⟩ := hold j socket hj
    have hm := hmild j old hold
    exact hm.quiet.mpr (h.fresh j old hold (hm.fresh hready))
  · intro j hj
    obtain ⟨socket, hsocket, hready, hsent⟩ := h.awaiting j hj
    have hm := hmild j socket hsocket
    exact ⟨_, hget j socket hsocket, fun hc => hready (hm.fresh hc), hm.quiet.mpr hsent⟩
  · intro k j hk
    obtain ⟨socket, hsocket, hready, hsent⟩ := h.beating k j hk
    have hm := hmild j socket hsocket
    exact ⟨_, hget j socket hsocket, fun hc => hready (hm.fresh hc),
      fun hc hnil => hsent (hm.opens hc) (hm.quiet.mp hnil)⟩

theorem Greeted.close_current (h : Greeted p) : Greeted p.close_current := by
  unfold Page.close_current
  split
  · exact h
  · exact h.update fun _ _ => mild_close

theorem Greeted.clear_heartbeat (h : Greeted p) : Greeted p.clear_heartbeat :=
  ⟨h.first, h.fresh, h.nodup, h.awaiting, fun k i hk => h.beating k i (List.mem_filter.mp hk).1⟩

theorem Greeted.open_socket (h : Greeted p) (run : Nat) : Greeted (p.open_socket run) := by
  have hkeep : ∀ (j : Nat) (socket : Socket), p.sockets[j]? = some socket →
      (p.open_socket run).sockets[j]? = some socket := by
    intro j socket hj
    unfold Page.open_socket
    dsimp only
    rw [List.getElem?_append_left (List.getElem?_eq_some_iff.mp hj).1, hj]
  have hcases : ∀ (j : Nat) (socket : Socket), (p.open_socket run).sockets[j]? = some socket →
      p.sockets[j]? = some socket ∨ socket = { run := run } := by
    intro j socket hj
    unfold Page.open_socket at hj
    dsimp only at hj
    rw [List.getElem?_append] at hj
    split_ifs at hj
    · exact .inl hj
    · rw [List.getElem?_singleton] at hj
      split_ifs at hj
      exact .inr (Option.some.inj hj).symm
  refine ⟨?_, ?_, h.nodup, ?_, ?_⟩
  · intro j socket hj
    rcases hcases j socket hj with hj | rfl
    · exact h.first j socket hj
    · exact .inl rfl
  · intro j socket hj hready
    rcases hcases j socket hj with hj | rfl
    · exact h.fresh j socket hj hready
    · rfl
  · intro j hj
    obtain ⟨socket, hsocket, hrest⟩ := h.awaiting j hj
    exact ⟨socket, hkeep j socket hsocket, hrest⟩
  · intro k j hk
    obtain ⟨socket, hsocket, hrest⟩ := h.beating k j hk
    exact ⟨socket, hkeep j socket hsocket, hrest⟩

/-- A socket that is connecting is not awaited, and it has no interval. -/
theorem Greeted.not_awaiting (h : Greeted p) (hi : p.sockets[i]? = some socket)
    (hready : socket.ready = .connecting) :
    i ∉ p.awaiting ∧ ∀ k, (k, i) ∉ p.intervals := by
  refine ⟨fun hmem => ?_, fun k hmem => ?_⟩
  · obtain ⟨s, hs, hne, _⟩ := h.awaiting i hmem
    obtain rfl : socket = s := Option.some.inj (hi.symm.trans hs)
    exact hne hready
  · obtain ⟨s, hs, hne, _⟩ := h.beating k i hmem
    obtain rfl : socket = s := Option.some.inj (hi.symm.trans hs)
    exact hne hready

theorem Greeted.opened (h : Greeted p) (hi : p.sockets[i]? = some socket)
    (hready : socket.ready = .connecting) : Greeted (p.opened i socket) := by
  obtain ⟨hawait, hbeat⟩ := h.not_awaiting hi hready
  have hsent := h.fresh i socket hi hready
  have hget : ∀ (j : Nat) (s : Socket), p.sockets[j]? = some s → j ≠ i →
      (p.update i fun s => { s with ready := .open_ }).sockets[j]? = some s := by
    intro j s hj hij
    rw [sockets_update_self hj, if_neg hij.symm]
  have hopen : Greeted (p.update i fun s => { s with ready := .open_ }) := by
    refine ⟨?_, ?_, h.nodup, ?_, ?_⟩
    · intro j s hj
      obtain ⟨old, hold, rfl⟩ := sockets_update hj
      split_ifs <;> exact h.first j old hold
    · intro j s hj hc
      obtain ⟨old, hold, rfl⟩ := sockets_update hj
      split_ifs at hc ⊢
      exact h.fresh j old hold hc
    · intro j hj
      obtain ⟨s, hs, hrest⟩ := h.awaiting j hj
      exact ⟨s, hget j s hs fun heq => hawait (heq ▸ hj), hrest⟩
    · intro k j hk
      obtain ⟨s, hs, hrest⟩ := h.beating k j hk
      exact ⟨s, hget j s hs fun heq => hbeat k (heq ▸ hk), hrest⟩
  unfold Page.opened
  dsimp only
  split_ifs
  · exact hopen.update fun _ _ => mild_close
  · refine ⟨hopen.first, hopen.fresh, ?_, ?_, fun k j hk => ?_⟩
    · exact List.nodup_append.mpr ⟨h.nodup, by simp, fun j hj k hk => by
        rintro rfl
        exact hawait (List.mem_singleton.mp hk ▸ hj)⟩
    · intro j hj
      rcases List.mem_append.mp hj with hj | hj
      · exact hopen.awaiting j hj
      · obtain rfl := List.mem_singleton.mp hj
        refine ⟨_, sockets_update_self hi, ?_⟩
        rw [if_pos rfl]
        exact ⟨by simp, hsent⟩
    · exact hopen.beating k j (List.mem_filter.mp hk).1

/-- The token is sent on a socket that has sent nothing. -/
theorem Greeted.authed (h : Greeted p) (hmem : i ∈ p.awaiting) :
    Greeted (({ p with awaiting := p.awaiting.erase i } : Page).authed i) := by
  obtain ⟨socket, hi, hready, hsent⟩ := h.awaiting i hmem
  have hself : ((p.update i (Socket.send .auth)).sockets[i]? = some (socket.send .auth)) := by
    rw [sockets_update_self hi, if_pos rfl]
  have hsame : (socket.send .auth).ready = socket.ready := by
    obtain ⟨run, ready, sent⟩ := socket
    cases ready <;> rfl
  have hgreet : (socket.send .auth).ready = .open_ → (socket.send .auth).sent ≠ [] := by
    obtain ⟨run, ready, sent⟩ := socket
    cases ready <;> simp [Socket.send]
  have hgreeted : ∃ s, (p.update i (Socket.send .auth)).sockets[i]? = some s ∧
      s.ready ≠ .connecting ∧ (s.ready = .open_ → s.sent ≠ []) :=
    ⟨_, hself, hsame ▸ hready, hgreet⟩
  have hother : ∀ (j : Nat) (s : Socket), p.sockets[j]? = some s → j ≠ i →
      (p.update i (Socket.send .auth)).sockets[j]? = some s := by
    intro j s hj hij
    rw [sockets_update_self hj, if_neg hij.symm]
  refine ⟨?_, ?_, h.nodup.erase i, ?_, ?_⟩
  · intro j s hj
    obtain ⟨old, hold, rfl⟩ := sockets_update hj
    split_ifs with hij
    · subst hij
      obtain rfl : socket = old := Option.some.inj (hi.symm.trans hold)
      obtain ⟨run, ready, sent⟩ := socket
      dsimp only at hsent
      subst hsent
      cases ready with
      | open_ => exact .inr ⟨[], rfl, List.not_mem_nil⟩
      | connecting | closing | closed => exact .inl rfl
    · exact h.first j old hold
  · intro j s hj hc
    obtain ⟨old, hold, rfl⟩ := sockets_update hj
    split_ifs at hc ⊢ with hij
    · subst hij
      obtain rfl : socket = old := Option.some.inj (hi.symm.trans hold)
      exact absurd (hsame.symm.trans hc) hready
    · exact h.fresh j old hold hc
  · intro j hj
    obtain ⟨hne, hj⟩ := (List.Nodup.mem_erase_iff h.nodup).mp hj
    obtain ⟨s, hs, hrest⟩ := h.awaiting j hj
    exact ⟨s, hother j s hs hne, hrest⟩
  · intro k j hk
    rcases List.mem_append.mp hk with hk | hk
    · by_cases hij : j = i
      · subst hij
        exact hgreeted
      · obtain ⟨s, hs, hrest⟩ := h.beating k j hk
        exact ⟨s, hother j s hs hij, hrest⟩
    · obtain ⟨rfl, rfl⟩ := Prod.mk.inj (List.mem_singleton.mp hk)
      exact hgreeted

theorem Greeted.schedule_reconnect (h : Greeted p) (run : Nat) :
    Greeted (p.schedule_reconnect run) := by
  unfold Page.schedule_reconnect
  split_ifs
  · exact h
  · exact ⟨h.first, h.fresh, h.nodup, h.awaiting, h.beating⟩

theorem Greeted.closed (h : Greeted p) : Greeted (p.closed i socket) := by
  have hclose : Greeted (p.update i fun socket => { socket with ready := .closed }) :=
    h.update fun _ _ => mild_closed
  unfold Page.closed
  dsimp only
  refine (Greeted.clear_heartbeat ?_).schedule_reconnect _
  split_ifs
  · exact ⟨hclose.first, hclose.fresh, hclose.nodup, hclose.awaiting, hclose.beating⟩
  · exact hclose

theorem Greeted.cleanup (h : Greeted p) : Greeted p.cleanup := by
  unfold Page.cleanup
  split
  · exact h
  · have hnone : Greeted { p with effect := none, prevent := true, reconnect := none } :=
      ⟨h.first, h.fresh, h.nodup, h.awaiting, h.beating⟩
    have hclose := hnone.clear_heartbeat.close_current
    exact ⟨hclose.first, hclose.fresh, hclose.nodup, hclose.awaiting, hclose.beating⟩

theorem Greeted.sign_out (h : Greeted p) : Greeted p.sign_out := by
  have hnone : Greeted { p with
      signed_in := false, prevent := true, attempts := 0, reconnect := none } :=
    ⟨h.first, h.fresh, h.nodup, h.awaiting, h.beating⟩
  have hclose := hnone.clear_heartbeat.close_current
  exact ⟨hclose.first, hclose.fresh, hclose.nodup, hclose.awaiting, hclose.beating⟩

theorem greeted_step {a : Label} (h : Greeted p) (hok : AfterAuth p a)
    (hstep : p.step a = some p') : Greeted p' := by
  cases a with
  | run_effect =>
    obtain rfl := Option.some.inj hstep
    have hclean := h.cleanup
    have hnew : Greeted { p.cleanup with
        effect := some p.cleanup.runs
        runs := p.cleanup.runs + 1 } :=
      ⟨hclean.first, hclean.fresh, hclean.nodup, hclean.awaiting, hclean.beating⟩
    exact hnew.open_socket _
  | cleanup =>
    obtain rfl := Option.some.inj hstep
    exact h.cleanup
  | sign_out =>
    obtain rfl := Option.some.inj hstep
    exact h.sign_out
  | opened i =>
    unfold Page.step at hstep
    dsimp only at hstep
    split at hstep
    · cases hstep
    · rename_i socket hi
      split_ifs at hstep with hready
      obtain rfl := Option.some.inj hstep
      exact h.opened hi hready
  | authed i ok =>
    unfold Page.step at hstep
    dsimp only at hstep
    split_ifs at hstep with hmem hsome
    · obtain rfl := Option.some.inj hstep
      exact h.authed hmem
    · obtain rfl := Option.some.inj hstep
      have hless : Greeted { p with awaiting := p.awaiting.erase i } :=
        ⟨h.first, h.fresh, h.nodup.erase i, fun j hj => h.awaiting j (List.mem_of_mem_erase hj),
          h.beating⟩
      exact hless.update fun _ _ => mild_close
  | beat interval =>
    obtain ⟨i, hlookup, rfl⟩ := Option.map_eq_some_iff.mp hstep
    obtain ⟨s, hs, _, hsent⟩ := h.beating interval i (by
      obtain ⟨before, after, hsplit, _⟩ := List.lookup_eq_some_iff.mp hlookup
      simp [hsplit])
    refine h.update fun socket hi => mild_send (by simp) ?_
    obtain rfl : s = socket := Option.some.inj (hs.symm.trans hi)
    exact hsent
  | frame chat =>
    obtain ⟨i, hi, rfl⟩ := Option.map_eq_some_iff.mp hstep
    refine h.update fun socket hsocket => mild_send ?_ (hok i hi socket hsocket)
    cases chat <;> simp
  | error i token =>
    unfold Page.step at hstep
    dsimp only at hstep
    split at hstep
    · cases hstep
    · split_ifs at hstep
      obtain rfl := Option.some.inj hstep
      exact Greeted.close_current ⟨h.first, h.fresh, h.nodup, h.awaiting, h.beating⟩
  | refreshed ok =>
    unfold Page.step at hstep
    dsimp only at hstep
    split_ifs at hstep
    obtain rfl := Option.some.inj hstep
    exact ⟨h.first, h.fresh, h.nodup, h.awaiting, h.beating⟩
  | closed i =>
    unfold Page.step at hstep
    dsimp only at hstep
    split at hstep
    · cases hstep
    · split_ifs at hstep
      obtain rfl := Option.some.inj hstep
      exact h.closed
  | fire =>
    obtain ⟨⟨run, wait⟩, _, rfl⟩ := Option.map_eq_some_iff.mp hstep
    have hfired : Greeted { p with reconnect := none } :=
      ⟨h.first, h.fresh, h.nodup, h.awaiting, h.beating⟩
    dsimp only
    split_ifs
    · exact hfired.open_socket run
    · exact hfired

/-- A frame on an open socket that has sent nothing is its first. -/
theorem after_auth_of_step {a : Label} (hstep : p.step a = some p')
    (hfirst : ∀ (i : Nat) (socket : Socket), p'.sockets[i]? = some socket →
      AuthFirst socket.sent) : AfterAuth p a := by
  cases a with
  | frame chat =>
    intro i hi socket hsocket hready hsent
    unfold Page.step at hstep
    dsimp only at hstep
    rw [Option.mem_def.mp hi] at hstep
    obtain rfl := Option.some.inj hstep
    have hself := hfirst i _ (sockets_update_self (Option.mem_def.mp hsocket))
    obtain ⟨run, ready, sent⟩ := socket
    dsimp only at hready hsent
    subst hready hsent
    cases chat <;> simp [Socket.send, AuthFirst] at hself
  | _ => trivial

end Greeted

/-- In every run the token is the first frame on each socket and is sent once, exactly when no
message and no read mark is sent on an open socket before it. -/
theorem the_token_is_sent_first_iff_nothing_precedes_it {as : List Label} {p : Page}
    (hr : page.run as = some p) :
    (∀ bs p', bs <+: as → page.run bs = some p' →
      ∀ (i : Nat) (socket : Socket), p'.sockets[i]? = some socket → AuthFirst socket.sent) ↔
      page.Meets AfterAuth as := by
  refine Machine.always_iff_meets ?_ (fun _ _ _ h hok hstep => greeted_step h hok hstep)
    (fun _ h => h.first) (fun _ _ _ _ hstep hs => after_auth_of_step hstep hs) hr
  constructor <;> simp [page]

/-- The token is sent, and then a message. -/
theorem a_message_follows_the_token :
    ∃ p, page.run [.run_effect, .opened 0, .authed 0 true, .frame true] = some p ∧
      ∀ (i : Nat) (socket : Socket), p.sockets[i]? = some socket → AuthFirst socket.sent :=
  ⟨_, rfl, (@the_token_is_sent_first_iff_nothing_precedes_it
    [.run_effect, .opened 0, .authed 0 true, .frame true] _ rfl).mpr (by decide) _ _
      (List.prefix_refl _) rfl⟩

/-- The conversation is read while the session is still awaited. -/
example : ¬ page.Meets AfterAuth [.run_effect, .opened 0, .frame false] := by decide

end loomic.first_frames
