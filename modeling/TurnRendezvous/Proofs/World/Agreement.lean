/-
# `World.invites_agree` — all players of a room learn one invite

Let no player run two agents on one room.  Then whatever invite an agent tells
its owner, all agents on that room tell the same one.  It is not empty, it is what
a host of the room's creator offers, and the host's turn had been accepted by
then.  And once a room holds an invite it holds that invite until it is gone.

Both are read off an honest world: whoever answers for the data of a room is the
one agent that its creator runs on it.
-/
import TurnRendezvous.Proofs.World.Candor

namespace TurnRendezvous

/-- The match that an agent was ever started on. -/
def Member.startedOn? (m : Member) : Option MatchId := m.agent.rendezvous.map (·.matchId)

namespace World

/-- No player runs two agents on one match. -/
def OneEach (w : World Lobby) : Prop :=
  w.members.Pairwise fun m m' =>
    w.player m.caller = w.player m'.caller → m.startedOn? = m'.startedOn? → m.startedOn? = none

instance (w : World Lobby) : Decidable w.OneEach :=
  inferInstanceAs (Decidable (w.members.Pairwise _))

/-- A player runs a host on a match, whose invite was accepted. -/
def Hosts (w : World Lobby) (p : PlayerId) (id : MatchId) (invite : String) : Prop :=
  ∃ m ∈ w.members, w.player m.caller = p ∧
    (∃ v, m.agent.rendezvous = some v ∧ v.matchId = id ∧ v.role = .host invite) ∧
    ⟨m.caller, .turnLanded id⟩ ∈ w.log

variable {w : World Lobby} {ws : List (World Lobby)}

theorem OneEach.member_eq (h : w.OneEach) {m m' : Member} (hm : m ∈ w.members)
    (hm' : m' ∈ w.members) (hp : w.player m.caller = w.player m'.caller) {id : MatchId}
    (hs : m.startedOn? = some id) (hs' : m'.startedOn? = some id) : m = m' := by
  obtain ⟨i, hi, rfl⟩ := List.mem_iff_getElem.1 hm
  obtain ⟨j, hj, rfl⟩ := List.mem_iff_getElem.1 hm'
  have apart := List.pairwise_iff_getElem.1 h
  rcases Nat.lt_trichotomy i j with hij | rfl | hij
  · have hnone := apart i j hi hj hij hp (hs.trans hs'.symm)
    cases hs.symm.trans hnone
  · rfl
  · have hnone := apart j i hj hi hij hp.symm (hs'.trans hs.symm)
    cases hs'.symm.trans hnone

/-- Two authors of one room write the same. -/
theorem Author.unique (h1 : w.OneEach) {r r' : Room} {b b' : Bytes} (h : w.Author r b)
    (h' : w.Author r' b') (hid : r'.id = r.id) (hcr : r'.creator = r.creator) : b = b' := by
  obtain ⟨m, hm, hp, v, hv, hvid, hwords⟩ := h
  obtain ⟨m', hm', hp', v', hv', hvid', hwords'⟩ := h'
  have hs : m.startedOn? = some r.id := by simp [Member.startedOn?, hv, hvid]
  have hs' : m'.startedOn? = some r.id := by simp [Member.startedOn?, hv', hvid', hid]
  obtain rfl := h1.member_eq hm hm' (hp.trans (hcr.symm.trans hp'.symm)) hs hs'
  obtain rfl := Option.some.inj (hv.symm.trans hv')
  rcases hwords with ⟨invite, hi, hrole, rfl, -⟩ | ⟨hrole, rfl⟩
  · rcases hwords' with ⟨invite', hi', hrole', rfl, -⟩ | ⟨hrole', -⟩
    · obtain rfl := Role.host.inj (hrole.symm.trans hrole')
      rfl
    · simp [hrole, Role.isHost] at hrole'
  · rcases hwords' with ⟨invite', hi', hrole', -⟩ | ⟨-, rfl⟩
    · simp [hrole', Role.isHost] at hrole
    · rfl

/-- Data with an invite is a host's. -/
theorem Author.hosts {r : Room} {b : Bytes} (h : w.Author r b) {invite : String} {hi : invite ≠ ""}
    (hd : Payload.decode (some b) = .invite invite hi) : w.Hosts r.creator r.id invite := by
  obtain ⟨m, hm, hp, v, hv, hvid, hwords⟩ := h
  rcases hwords with ⟨invite', hi', hrole, rfl, hlog⟩ | ⟨-, rfl⟩
  · rw [Payload.decode_encode] at hd
    obtain rfl := (Payload.invite.inj hd)
    exact ⟨m, hm, hp, ⟨v, hv, hvid, hrole⟩, hlog⟩
  · rw [Payload.decode_encode] at hd
    cases hd

/-- All data that a room ever has is the same. -/
theorem data_eq_of_history (hw : History (w :: ws)) (h1 : w.OneEach) {r r' : Room} {b b' : Bytes}
    (hr : Past (w :: ws) r) (hr' : Past (w :: ws) r') (hid : r'.id = r.id) (hb : r.data = some b)
    (hb' : r'.data = some b') : b = b' := by
  have h := honest_of_history hw
  have hcr := h.chronicle.creator r' r hr' hr hid
  exact (h.author r b hr hb).unique h1 (h.author r' b' hr' hb') hid hcr

theorem invite_eq_of_recorded (hw : History (w :: ws)) (h1 : w.OneEach) {id : MatchId}
    {invite invite' : String} (h : Recorded (Past (w :: ws)) id invite)
    (h' : Recorded (Past (w :: ws)) id invite') : invite' = invite := by
  obtain ⟨r, hi, hr, hid, hd⟩ := h
  obtain ⟨r', hi', hr', hid', hd'⟩ := h'
  obtain ⟨b, hb⟩ := Payload.exists_of_decode_invite hd
  obtain ⟨b', hb'⟩ := Payload.exists_of_decode_invite hd'
  obtain rfl := data_eq_of_history hw h1 hr hr' (hid'.trans hid.symm) hb hb'
  rw [hb] at hd
  rw [hb'] at hd'
  exact Payload.invite.inj (hd'.symm.trans hd)

theorem hosts_of_recorded (hw : History (w :: ws)) {id : MatchId} {invite : String}
    (h : Recorded (Past (w :: ws)) id invite) {r : Room} (hr : Past (w :: ws) r) (hid : r.id = id) :
    w.Hosts r.creator id invite := by
  have honest := honest_of_history hw
  obtain ⟨r₀, hi, hr₀, hid₀, hd⟩ := h
  obtain ⟨b, hb⟩ := Payload.exists_of_decode_invite hd
  rw [hb] at hd
  have hosts := (honest.author r₀ b hr₀ hb).hosts hd
  rw [hid₀, honest.chronicle.creator r₀ r hr₀ hr (hid₀.trans hid.symm)] at hosts
  exact hosts

/-- An invite that a room once held it still holds. -/
theorem decode_stays (hw : History (w :: ws)) (h1 : w.OneEach) {r r' : Room} {invite : String}
    {hi : invite ≠ ""} (hr : Past (w :: ws) r) (hr' : r' ∈ w.service.hub.rooms)
    (hid : r'.id = r.id) (hd : Payload.decode r.data = .invite invite hi) :
    Payload.decode r'.data = .invite invite hi := by
  obtain ⟨b, hb⟩ := Payload.exists_of_decode_invite hd
  have hkept := (honest_of_history hw).chronicle.kept r hr (by simp [hb]) r' hr' hid
  obtain ⟨b', hb'⟩ := Option.ne_none_iff_exists'.1 hkept
  have hpast : Past (w :: ws) r' := ⟨w, List.mem_cons_self, hr'⟩
  obtain rfl := data_eq_of_history hw h1 hr hpast hid hb hb'
  rw [hb', ← hb]
  exact hd

/-- Whatever the players, the service and the agents have done so far, in whatever
order: if no player runs two agents on one match, then all invites that agents have
told their owners about a match are the same one.  It is not empty, and whoever
created the match runs a host with it, whose turn was accepted.  An invite that was
ever the data of a room is the data of that room as long as it is there. -/
theorem invites_agree (hw : History (w :: ws)) (h1 : w.OneEach) :
    (∀ m ∈ w.members, ∀ id invite, ⟨id, .complete (some invite)⟩ ∈ m.delivered →
      invite ≠ "" ∧
      (∀ m' ∈ w.members, ∀ invite', ⟨id, .complete (some invite')⟩ ∈ m'.delivered →
        invite' = invite) ∧
      (∃ r, Past (w :: ws) r ∧ r.id = id) ∧
      ∀ r, Past (w :: ws) r → r.id = id → w.Hosts r.creator id invite) ∧
    ∀ r r' invite hi, Past (w :: ws) r → r' ∈ w.service.hub.rooms → r'.id = r.id →
      Payload.decode r.data = .invite invite hi → Payload.decode r'.data = .invite invite hi := by
  have h := honest_of_history hw
  constructor
  · intro m hm id invite hreport
    have recorded := (h.members m hm).told id invite hreport
    have ⟨r, hi, hr, hid, _⟩ := recorded
    refine ⟨hi, ?_, ⟨r, hr, hid⟩, ?_⟩
    · intro m' hm' invite' hreport'
      exact invite_eq_of_recorded hw h1 recorded ((h.members m' hm').told id invite' hreport')
    · intro r' hr' hid'
      exact hosts_of_recorded hw recorded hr' hid'
  · intro r r' invite hi hr hr' hid hd
    exact decode_stays hw h1 hr hr' hid hd

/-! ## A meeting -/

/-- Each part of a row moves once, if it can. -/
def moves (w : World Lobby) (parts : List Part) : World Lobby :=
  parts.foldl (fun w part => (w.step? [] part).getD w) w

theorem history_moves (parts : List Part) :
    ∀ {w : World Lobby} {ws : List (World Lobby)}, History (w :: ws) →
      ∃ ws', History (w.moves parts :: ws') := by
  induction parts with
  | nil => exact fun h => ⟨_, h⟩
  | cons part parts ih =>
    intro w ws h
    cases hs : w.step? [] part with
    | none =>
      obtain ⟨ws', h'⟩ := ih h
      exact ⟨ws', by simpa [moves, hs] using h'⟩
    | some w' =>
      obtain ⟨ws', h'⟩ := ih (h.next (.step hs))
      exact ⟨ws', by simpa [moves, hs] using h'⟩

/-- A new agent of a player is started on the first room and plays a turn. -/
def joined (w : World Lobby) (c : Caller) (role : Role) : World Lobby :=
  let (i, w) := w.addMember
    { caller := c, probes := { usual := ⟨.reachable, .zero⟩ }, agent := .ofRole role {} }
  match w.service.hub.rooms with
  | r :: _ =>
    (w.start i (r.snapshot (w.player c))).2.moves [.rendezvous i, .task i 0, .rendezvous i]
  | [] => w

theorem history_joined (h : History (w :: ws)) {c : Caller} (hc : c < w.service.handles.length)
    (role : Role) : ∃ ws', History (w.joined c role :: ws') := by
  have added := h.next (.addMember { usual := ⟨.reachable, .zero⟩ } role {} hc)
  simp only [joined]
  split
  next r rooms hrooms =>
    have started := added.next (.start (i := w.members.length) (r := r) List.getElem?_concat_length
      ⟨_, List.mem_cons_self, by rw [hrooms]; exact List.mem_cons_self⟩)
    exact history_moves _ started
  next => exact ⟨_, added⟩

/-- Two players in one room, a host of the first, then a client of the second. -/
def meeting : World Lobby :=
  let l := ((({} : Lobby).connect "a" ⟨"a"⟩).1.connect "b" ⟨"b"⟩).1
  let l := ((l.create 0 .autoMatching).1.create 1 .autoMatching).1
  (World.joined { service := l } 0 (.host "x")).joined 1 (.client none)

theorem history_meeting : ∃ ws, History (meeting :: ws) := by
  have opened := ((((History.start.next (.connect "a" ⟨"a"⟩)).next (.connect "b" ⟨"b"⟩)).next
    (.create 0 .autoMatching)).next (.create 1 .autoMatching))
  obtain ⟨ws, hosted⟩ := history_joined opened (c := 0) (by decide) (.host "x")
  exact history_joined hosted (c := 1) (by decide +kernel) (.client none)

theorem invites_agree_at_a_meeting :
    ∃ ws, History (meeting :: ws) ∧ meeting.OneEach ∧
      (∃ m ∈ meeting.members, ⟨⟨"#1"⟩, .complete (some "x")⟩ ∈ m.delivered) ∧
      ∀ r, Past (meeting :: ws) r → r.id = ⟨"#1"⟩ → meeting.Hosts r.creator ⟨"#1"⟩ "x" := by
  obtain ⟨ws, h⟩ := history_meeting
  have h1 : meeting.OneEach := by decide +kernel
  have told : ∃ m ∈ meeting.members, ⟨⟨"#1"⟩, .complete (some "x")⟩ ∈ m.delivered := by
    decide +kernel
  refine ⟨ws, h, h1, told, ?_⟩
  obtain ⟨m, hm, hreport⟩ := told
  exact ((invites_agree h h1).1 m hm ⟨"#1"⟩ "x" hreport).2.2.2

end World

end TurnRendezvous
