/-
# `World.Honest` — whose words are in the rooms

`P` are the rooms that ever were.  In an honest world the hub fits them
(`Hub.Chronicle`), every agent only looks at what its player was shown of them
(`Upright`), and so does every session (`Candid`).  And whatever data a room ever
had goes back to an agent that the room's creator ran on it (`Author`): it is that
host's invite, which has landed, or the empty payload of a client.

The last is what no order of steps can break.  The first turn is the creator's,
since nobody else holds it while there is no data; every later turn writes again
what was found, and a late one of the creator's own agent writes again what it
had to say from the beginning.

* `Honest.update`: what is new in a later world is all that has to be looked at;
* `honest_perform`: a call of the hub that is no turn keeps a world honest;
* `honest_move`: and so does a move of an agent that brings what was shown.
-/
import TurnRendezvous.Proofs.Wire
import TurnRendezvous.Proofs.World.History

namespace TurnRendezvous

/-- Members of a list in which one place was changed. -/
theorem mem_modify {α : Type} {l : List α} {i : Nat} {f : α → α} {x : α}
    (h : x ∈ l.modify i f) : x ∈ l ∨ ∃ y, l[i]? = some y ∧ x = f y := by
  obtain ⟨k, hk⟩ := List.mem_iff_getElem?.1 h
  rw [List.getElem?_modify] at hk
  obtain ⟨y, hy, rfl⟩ := Option.map_eq_some_iff.1 hk
  by_cases hik : i = k
  · subst hik
    exact .inr ⟨y, hy, by simp⟩
  · rw [if_neg hik]
    exact .inl (List.mem_of_getElem? hy)

namespace World

theorem getElem?_modifyMember {w : World Lobby} {i : Nat} {m : Member}
    (hm : w.members[i]? = some m) (f : Member → Member) :
    (w.modifyMember i f).members[i]? = some (f m) := by
  simp [modifyMember, hm]

/-- An agent that the creator of a room runs on it, and that answers for its data. -/
def Author (w : World Lobby) (r : Room) (b : Bytes) : Prop :=
  ∃ m ∈ w.members, w.player m.caller = r.creator ∧
    ∃ v, m.agent.rendezvous = some v ∧ v.matchId = r.id ∧
      ((∃ invite h, v.role = .host invite ∧ b = (Payload.invite invite h).encode ∧
          ⟨m.caller, .turnLanded r.id⟩ ∈ w.log) ∨
        (v.role.isHost = false ∧ b = Payload.uninitialized.encode))

/-- An invite that was once the data of a room. -/
def Recorded (P : Room → Prop) (id : MatchId) (text : String) : Prop :=
  ∃ r h, P r ∧ r.id = id ∧ Payload.decode r.data = .invite text h

/-- A member whose agent only looks at what was shown, and tells what was found. -/
structure Upright (P : Room → Prop) (w : World Lobby) (m : Member) : Prop where
  caller : m.caller < w.service.handles.length
  standing : m.agent.Standing
  faithful : m.agent.Faithful (Shown P (w.player m.caller))
  told : ∀ id text, ⟨id, .complete (some text)⟩ ∈ m.delivered → Recorded P id text

/-- A session that only plays what was shown. -/
structure Candid (P : Room → Prop) (w : World Lobby) (q : Quest) : Prop where
  caller : q.caller < w.service.handles.length
  answer : ∀ due creation m, q.answer = some (due, creation) → creation.result = .ok m →
    Shown P (w.player q.caller) m
  room : ∀ m, q.session.stage = .starting m → Shown P (w.player q.caller) m

structure Honest (P : Room → Prop) (w : World Lobby) : Prop where
  chronicle : w.service.hub.Chronicle P
  author : ∀ r b, P r → r.data = some b → w.Author r b
  members : ∀ m ∈ w.members, w.Upright P m
  quests : ∀ q ∈ w.quests, w.Candid P q

/-! ## Later worlds -/

/-- A member at a later time. -/
structure Heir (m m' : Member) : Prop where
  caller : m'.caller = m.caller
  aim : ∀ v, m.agent.rendezvous = some v → ∃ v', m'.agent.rendezvous = some v' ∧ v.SameAim v'

theorem Heir.of_eq {m m' : Member} (hc : m'.caller = m.caller)
    (hr : m'.agent.rendezvous = m.agent.rendezvous) : Heir m m' := by
  refine ⟨hc, ?_⟩
  intro v hv
  exact ⟨v, hr.trans hv, rfl, rfl, rfl, rfl⟩

/-- A world in which everybody is still there and nothing is struck from the log. -/
structure Extends (w w' : World Lobby) : Prop where
  handles : w.service.handles <+: w'.service.handles
  members : ∀ m ∈ w.members, ∃ m' ∈ w'.members, Heir m m'
  log : w.log ⊆ w'.log

theorem Extends.of_subset {w w' : World Lobby} (hm : w.members ⊆ w'.members)
    (hl : w.log ⊆ w'.log) (hs : w.service.handles <+: w'.service.handles) : w.Extends w' :=
  ⟨hs, fun m hmem => ⟨m, hm hmem, .of_eq rfl rfl⟩, hl⟩

section Later
variable {P P' : Room → Prop} {w w' : World Lobby} (hP : ∀ r, P r → P' r)

theorem player_stays (hw : w.service.handles <+: w'.service.handles) {c : Caller}
    (hc : c < w.service.handles.length) : w'.player c = w.player c :=
  Lobby.player_stays hw hc

include hP in
theorem Upright.mono {m : Member} (h : w.Upright P m)
    (hw : w.service.handles <+: w'.service.handles) : w'.Upright P' m := by
  refine ⟨Nat.lt_of_lt_of_le h.caller hw.length_le, h.standing, ?_, ?_⟩
  · rw [player_stays hw h.caller]
    exact h.faithful.mono fun _ => Shown.mono hP
  · intro id text hm
    obtain ⟨r, ht, hr, hid, hd⟩ := h.told id text hm
    exact ⟨r, ht, hP r hr, hid, hd⟩

include hP in
theorem Candid.mono {q : Quest} (h : w.Candid P q)
    (hw : w.service.handles <+: w'.service.handles) : w'.Candid P' q := by
  refine ⟨Nat.lt_of_lt_of_le h.caller hw.length_le, ?_, ?_⟩
  · intro due creation m hq hm
    rw [player_stays hw h.caller]
    exact (h.answer due creation m hq hm).mono hP
  · intro m hq
    rw [player_stays hw h.caller]
    exact (h.room m hq).mono hP

/-- An author stays one. -/
theorem Author.mono {r r' : Room} {b : Bytes} (h : w.Author r b) (he : w.Extends w')
    (hm : ∀ m ∈ w.members, m.caller < w.service.handles.length) (hid : r'.id = r.id)
    (hcr : r'.creator = r.creator) : w'.Author r' b := by
  obtain ⟨m, hmem, hp, v, hv, hvid, hwords⟩ := h
  obtain ⟨m', hmem', ⟨hcaller, hrv⟩⟩ := he.members m hmem
  obtain ⟨v', hv', haim⟩ := hrv v hv
  refine ⟨m', hmem', ?_, v', hv', by rw [haim.matchId, hvid, hid], ?_⟩
  · rw [hcaller, player_stays he.handles (hm m hmem), hp, hcr]
  · rcases hwords with ⟨invite, hi, hrole, hb, hlog⟩ | ⟨hrole, hb⟩
    · refine .inl ⟨invite, hi, ?_, hb, ?_⟩
      · rw [← Role.blank_eq_host_iff, haim.blank, hrole]
        rfl
      · rw [hcaller, hid]
        exact he.log hlog
    · refine .inr ⟨?_, hb⟩
      rw [← Role.isHost_blank, haim.blank, Role.isHost_blank, hrole]

include hP in
/-- What is new has to be looked at, and data that is new. -/
theorem Honest.update (h : w.Honest P) (he : w.Extends w') (hc : w'.service.hub.Chronicle P')
    (hd : ∀ r b, P' r → r.data = some b →
      (∃ r₀, P r₀ ∧ r₀.id = r.id ∧ r₀.creator = r.creator ∧ r₀.data = some b) ∨ w'.Author r b)
    (hm : ∀ m ∈ w'.members, m ∈ w.members ∨ w'.Upright P' m)
    (hq : ∀ q ∈ w'.quests, q ∈ w.quests ∨ w'.Candid P' q) : w'.Honest P' := by
  refine ⟨hc, ?_, ?_, ?_⟩
  · intro r b hr hb
    rcases hd r b hr hb with ⟨r₀, hr₀, hid, hcr, hb₀⟩ | ha
    · exact (h.author r₀ b hr₀ hb₀).mono he (fun m hm => (h.members m hm).caller) hid.symm hcr.symm
    · exact ha
  · intro m hmem
    exact (hm m hmem).elim (fun hold => (h.members m hold).mono hP he.handles) id
  · intro q hmem
    exact (hq q hmem).elim (fun hold => (h.quests q hold).mono hP he.handles) id

end Later

/-- An invite that a player has found is on record. -/
theorem recorded_of_found {P : Room → Prop} {p : PlayerId} {id : MatchId} {text : String}
    (h : Found (Shown P p) id text) : Recorded P id text := by
  obtain ⟨m, ht, ⟨r, hr, rfl⟩, hid, hd⟩ := h
  exact ⟨r, ht, hr, hid, hd⟩

/-! ## Changes beside the agents and the sessions -/

section Changes
variable {P P' : Room → Prop} {w w' : World Lobby}

/-- No call of the hub. -/
theorem Honest.same_hub (h : w.Honest P) (he : w.Extends w')
    (hub : w'.service.hub = w.service.hub) (hm : ∀ m ∈ w'.members, m ∈ w.members ∨ w'.Upright P m)
    (hq : ∀ q ∈ w'.quests, q ∈ w.quests ∨ w'.Candid P q) : w'.Honest P := by
  refine h.update (fun _ => id) he (hub ▸ h.chronicle) ?_ hm hq
  intro r b hr hb
  exact .inl ⟨r, hr, rfl, rfl, hb⟩

/-- A call of the hub. -/
theorem Honest.hub_changes (h : w.Honest P) (hP : ∀ r, P r → P' r)
    (hm : w'.members = w.members) (hq : w'.quests = w.quests) (hl : w.log ⊆ w'.log)
    (hs : w.service.handles <+: w'.service.handles) (hc : w'.service.hub.Chronicle P')
    (hd : ∀ r b, P' r → r.data = some b →
      (∃ r₀, P r₀ ∧ r₀.id = r.id ∧ r₀.creator = r.creator ∧ r₀.data = some b) ∨ w'.Author r b) :
    w'.Honest P' := by
  refine h.update hP (.of_subset (hm ▸ List.Subset.refl _) hl hs) hc hd ?_ ?_
  · intro m hmem
    exact .inl (hm ▸ hmem)
  · intro q hmem
    exact .inl (hq ▸ hmem)

/-- A change beside the agents, the sessions and the rooms. -/
theorem Honest.aside (h : w.Honest P) (hm : w'.members = w.members)
    (hq : w'.quests = w.quests) (hl : w.log ⊆ w'.log)
    (hs : w.service.handles <+: w'.service.handles) (hub : w'.service.hub = w.service.hub) :
    w'.Honest P :=
  h.hub_changes (fun _ => id) hm hq hl hs (hub ▸ h.chronicle)
    fun r _ hr hb => .inl ⟨r, hr, rfl, rfl, hb⟩

/-- All rooms of now are on record. -/
theorem Honest.with_now (h : w.Honest P) : w.Honest (Hub.With P w.service.hub) := by
  rw [Hub.with_eq_self h.chronicle.rooms]
  exact h

theorem honest_note (h : w.Honest P) (c : Caller) (call : Call) : (w.note c call).Honest P :=
  h.aside rfl rfl (List.subset_append_left _ _) List.prefix_rfl rfl

/-- A call that is no turn. -/
theorem honest_perform (h : w.Honest P) {a : Hub.Action} (ha : a.Next w.service.hub)
    (ht : a.isTurn = false) {l : Lobby} (hs : l.handles = w.service.handles)
    (hl : l.hub = w.service.hub.perform a) :
    { w with service := l }.Honest (Hub.With P l.hub) := by
  rw [hl]
  refine h.hub_changes (fun _ => .inl) rfl rfl (List.Subset.refl _) ?_ ?_ ?_
  · simp only [hs, List.prefix_rfl]
  · simp only [hl]
    exact Hub.chronicle_perform h.chronicle ha
  · intro r b hr hb
    exact .inl (Hub.data_of_mem h.chronicle ha ht hr hb)

theorem honest_acts (h : w.Honest P) {l : Lobby} (hl : w.service.Acts l) :
    { w with service := l }.Honest (Hub.With P l.hub) := by
  cases hl with
  | refused => exact h.with_now
  | performed ha ht => exact honest_perform h ha ht rfl rfl

theorem honest_subscribe (h : w.Honest P) (c : Caller) : (w.subscribe c).Honest P := by
  have ha : Hub.Action.Next w.service.hub (.subscribe (w.service.player c)) := trivial
  have heard := honest_perform h ha rfl (l := Matchmaker.subscribe w.service c) rfl rfl
  have same : (Matchmaker.subscribe w.service c).hub.rooms = w.service.hub.rooms :=
    Hub.rooms_subscribe _ _
  rw [Hub.with_eq_self (by rw [same]; exact h.chronicle.rooms)] at heard
  exact heard.aside rfl rfl (List.Subset.refl _) List.prefix_rfl rfl

/-! ## Changes of an agent or a session -/

theorem honest_modifyMember (h : w.Honest P) (i : Nat) {f : Member → Member}
    (hf : ∀ m, w.members[i]? = some m → w.Upright P m → w.Upright P (f m) ∧ Heir m (f m)) :
    (w.modifyMember i f).Honest P := by
  have heirs : ∀ m ∈ w.members, ∃ m' ∈ (w.modifyMember i f).members, Heir m m' := by
    intro m hmem
    obtain ⟨k, hk⟩ := List.mem_iff_getElem?.1 hmem
    by_cases hik : i = k
    · subst hik
      exact ⟨f m, List.mem_of_getElem? (getElem?_modifyMember hk f), (hf m hk (h.members m hmem)).2⟩
    · refine ⟨m, List.mem_of_getElem? (i := k) ?_, .of_eq rfl rfl⟩
      simp [modifyMember, hik, hk]
  refine h.same_hub ⟨List.prefix_rfl, heirs, List.Subset.refl _⟩ rfl ?_ ?_
  · intro m hmem
    rcases mem_modify hmem with hold | ⟨m₀, hm₀, rfl⟩
    · exact .inl hold
    · have hup := (hf m₀ hm₀ (h.members m₀ (List.mem_of_getElem? hm₀))).1
      exact .inr (hup.mono (fun _ => id) List.prefix_rfl)
  · intro q hmem
    exact .inl hmem

/-- A move of an agent that brings nothing but what was shown. -/
theorem honest_move (h : w.Honest P) (i : Nat) {f : Agent → Agent}
    (hf : ∀ m, w.members[i]? = some m → ∃ mv marks, m.agent.Moves mv marks (f m.agent) ∧
      mv.Shown (Shown P (w.player m.caller))) : (w.modifyAgent i f).Honest P := by
  refine honest_modifyMember h i ?_
  intro m hm hup
  obtain ⟨mv, marks, hmv, hs⟩ := hf m hm
  refine ⟨⟨hup.caller, Agent.standing_of_moves hup.standing hmv,
    Agent.faithful_of_moves hup.standing hup.faithful hmv hs, hup.told⟩, rfl, ?_⟩
  intro v hv
  exact Agent.heir_of_moves hup.standing hmv hv

theorem honest_owner (h : w.Honest P) (i : Nat) (c : OwnerCall) :
    (w.modifyAgent i (·.call c)).Honest P :=
  honest_move h i fun _ _ => ⟨_, _, .owner c, trivial⟩

theorem honest_detach (h : w.Honest P) (i : Nat) : (w.detach i).Honest P :=
  honest_owner h i .detach

/-- A report that is new tells an invite, if any, that is on record. -/
theorem honest_deliver (h : w.Honest P) (i : Nat) {report : Report}
    (hr : ∀ id text, report = ⟨id, .complete (some text)⟩ → Recorded P id text) :
    (w.modifyMember i fun m => { m with delivered := m.delivered ++ [report] }).Honest P := by
  refine honest_modifyMember h i ?_
  intro m _ hup
  refine ⟨⟨hup.caller, hup.standing, hup.faithful, ?_⟩, .of_eq rfl rfl⟩
  intro id text hmem
  rcases List.mem_append.1 hmem with hmem | hmem
  · exact hup.told id text hmem
  · exact hr id text (List.mem_singleton.1 hmem).symm

theorem honest_take (h : w.Honest P) (i : Nat) :
    (w.modifyMember i fun m => { m with taken := m.taken + 1 }).Honest P := by
  refine honest_modifyMember h i ?_
  intro m _ hup
  exact ⟨⟨hup.caller, hup.standing, hup.faithful, hup.told⟩, .of_eq rfl rfl⟩

theorem honest_modifyQuest (h : w.Honest P) (k : Nat) {f : Quest → Quest}
    (hf : ∀ q, w.quests[k]? = some q → w.Candid P q → w.Candid P (f q)) :
    (w.modifyQuest k f).Honest P := by
  refine h.same_hub
    (.of_subset (List.Subset.refl _) (List.Subset.refl _) List.prefix_rfl) rfl ?_ ?_
  · intro m hmem
    exact .inl hmem
  · intro q hmem
    rcases mem_modify hmem with hold | ⟨q₀, hq₀, rfl⟩
    · exact .inl hold
    · have hcan := hf q₀ hq₀ (h.quests q₀ (List.mem_of_getElem? hq₀))
      exact .inr (hcan.mono (fun _ => id) List.prefix_rfl)

end Changes

end World

end TurnRendezvous
