/-
# `World.Minds` — a hosted room is watched until it is gone

The session of a host is followed from its start, with its agent.  In between the agent
makes its steps and its tasks go on, the owner asks whether the room is gone, and anybody
may call the hub in any way (`World.Minds`); only the agent itself is not let go of.

* `watched_of_pursues`: how the session and its agent stand;
* `hosted_room_watched`: whether the room that was won is said to be gone;
* `hosted_room_lost_at_once`: and that this can be said while it is there.
-/
import TurnRendezvous.Proofs.Hub.Quitting
import TurnRendezvous.Proofs.World.Manned

namespace TurnRendezvous

/-- The match that the agent of a session has in hand: the room that it plays, or the one
that was won. -/
def SessionStage.inHand? : SessionStage → Option MatchId
  | .playing id => some id
  | .ended (.ok meeting) => some meeting.matchId
  | _ => none

namespace World

/-! ## What happens -/

/-- What can happen around the session at `k` while its agent is not let go of. -/
inductive Minds (k : Nat) (w : World Lobby) : World Lobby → Prop
  /-- The rendezvous of the agent makes a step. -/
  | step {q : Quest} {i : Nat} {words : List UInt64} {w' : World Lobby} :
      w.quests[k]? = some q → q.member = some i → w.stepRendezvous? i words = some w' →
      Minds k w w'
  | task {q : Quest} {i : Nat} {j : JobId} {w' : World Lobby} :
      w.quests[k]? = some q → q.member = some i → w.stepTask? i j = some w' → Minds k w w'
  /-- The owner asks whether the hosted room is gone, and it is not. -/
  | poll {q : Quest} {i : Nat} {m : Member} {meeting : Meeting} :
      w.quests[k]? = some q → q.session.result? = some (.ok meeting) → q.member = some i →
      w.members[i]? = some m → m.roomGone?.1 = none →
      Minds k w (w.modifyMember i fun m => { m with taken := m.roomGone?.2 })
  /-- Anything else, with any calls of the hub by anybody. -/
  | aside {w' : World Lobby} :
      w'.quests[k]? = w.quests[k]? →
      (∀ q, w.quests[k]? = some q → w'.player q.caller = w.player q.caller ∧
        ∀ i, q.member = some i → w'.members[i]? = w.members[i]?) →
      Hub.Later w.service.hub w'.service.hub → Minds k w w'

/-! ## What is kept -/

/-- How a session stands at each of its stages that has made the calls `calls`.  It has not
dismissed the room that it is about to play, plays, or has won. -/
inductive Fares (w : World Lobby) (q : Quest) (calls : List Call) : SessionStage → Prop
  | ready : Fares w q calls .ready
  | joining :
      (∀ due creation room, q.answer = some (due, creation) → creation.result = .ok room →
        w.service.hub.Enrols (w.player q.caller) room.id ∧ .dismissMatch room.id ∉ calls) →
      Fares w q calls .joining
  | starting {room : Match} :
      w.service.hub.Enrols (w.player q.caller) room.id → .dismissMatch room.id ∉ calls →
      Fares w q calls (.starting room)
  | playing {id : MatchId} {i : Nat} {m : Member} {t : List Agent.Stage} :
      Manned w q id 0 i m t → .dismissMatch id ∉ calls → Fares w q calls (.playing id)
  | cancelling {id : MatchId} {why : Failure} :
      w.service.hub.Enrols (w.player q.caller) id → Fares w q calls (.cancelling id why)
  | dismissing {id : MatchId} {why : Failure} :
      w.service.hub.Enrols (w.player q.caller) id → Fares w q calls (.dismissing id why)
  | failed {why : Failure} : Fares w q calls (.ended (.error why))
  /-- The session was won, and the owner has heard no more than that. -/
  | met {meeting : Meeting} {i : Nat} {m : Member} {t : List Agent.Stage} {first : Report}
      {rest : List Report} :
      Manned w q meeting.matchId 1 i m t → .dismissMatch meeting.matchId ∉ calls →
      meeting.hosted = true → m.delivered = first :: rest → first.isComplete = true →
      Fares w q calls (.ended (.ok meeting))

/-- The session of a host that has made the calls `calls` stands well in a regular hub. -/
structure Watched (k : Nat) (invite : String) (timing : Timing) (calls : List Call)
    (w : World Lobby) (q : Quest) : Prop where
  here : w.quests[k]? = some q
  side : q.session.side = .host invite
  timing : q.timing = timing
  regular : w.service.hub.Regular
  left : ∀ id, .dismissMatch id ∈ calls → w.service.hub.Enrols (w.player q.caller) id
  fares : Fares w q calls q.session.stage

/-! ## Whether the room is gone -/

section Manned
variable {w w' : World Lobby} {q : Quest} {id : MatchId} {i : Nat} {m : Member}
  {t : List Agent.Stage}

/-- A host leaves no match unless it is told to. -/
theorem leaves_iff_of_host {side : Side} {invite : String} (hside : side = .host invite)
    (timing : Timing) : timing.dismissOnFinish.getD side.role.leavesByDefault = true ↔
      timing.dismissOnFinish = some true := by
  rw [hside]
  cases timing.dismissOnFinish <;> simp [Side.role, Role.leavesByDefault]

/-- What is said of a hosted room that was won, and why. -/
theorem Manned.roomGone (hm : Manned w q id 1 i m t) {invite : String}
    (hside : q.session.side = .host invite) {first : Report} {rest : List Report}
    (hd : m.delivered = first :: rest) (hfirst : first.isComplete = true) :
    (q.timing.dismissOnFinish ≠ some true →
      m.roomGone? = (none, 1) ∧ m.agent.phase = .monitoring ∨
        m.roomGone?.1 = some ⟨id, .matchRemoved⟩ ∧
          w.service.hub.Lost (w.player q.caller) id) ∧
      (q.timing.dismissOnFinish = some true →
        m.roomGone?.1 = some ⟨id, .fatalError .serviceClosed⟩) := by
  have hdismiss := leaves_iff_of_host hside q.timing
  have hparted := hm.tended.parted (by rw [hside]; rfl) (hm.told.symm.trans hd) hfirst
  cases hparted with
  | watching hdis hphase =>
    refine ⟨fun _ => .inl ⟨?_, hphase⟩, fun h => ?_⟩
    · simp [Member.roomGone?, hd, hm.taken, Agent.isFinished, hphase]
    · rw [hdismiss.2 h] at hdis
      cases hdis
  | gone hdis hlost =>
    refine ⟨fun _ => .inr ⟨?_, hlost⟩, fun h => ?_⟩
    · simp [Member.roomGone?, hd, hm.taken, Report.isComplete]
    · rw [hdismiss.2 h] at hdis
      cases hdis
  | left hdis hphase =>
    refine ⟨fun h => absurd (hdismiss.1 hdis) h, fun _ => ?_⟩
    obtain ⟨r, hr⟩ : ∃ r, m.agent.rendezvous = some r := by
      cases hr : m.agent.rendezvous with
      | none => simp [Agent.phase, hr] at hphase
      | some r => exact ⟨r, rfl⟩
    simp [Member.roomGone?, hd, hm.taken, Agent.isFinished, hphase, hr,
      (hm.tended.informed r hr).1]

/-- An owner who asks in vain has heard no more than of the success. -/
theorem Manned.taken_of_none (hm : Manned w q id 1 i m t) {invite : String}
    (hside : q.session.side = .host invite) {first : Report} {rest : List Report}
    (hd : m.delivered = first :: rest) (hfirst : first.isComplete = true)
    (hnone : m.roomGone?.1 = none) : m.roomGone?.2 = 1 := by
  obtain ⟨hstays, hleaves⟩ := hm.roomGone hside hd hfirst
  by_cases hdis : q.timing.dismissOnFinish = some true
  · simp [hleaves hdis] at hnone
  · rcases hstays hdis with ⟨hgone, -⟩ | ⟨hgone, -⟩
    · rw [hgone]
    · simp [hgone] at hnone

end Manned

/-! ## The run -/

section Watched
variable {k : Nat} {invite : String} {timing : Timing} {w w' : World Lobby} {q q' : Quest}
  {input : SessionInput} {calls new : List Call}

/-- Whatever is kept of the agent, and calls of anybody, leave a session as it is. -/
theorem Fares.carry {stage : SessionStage} (hf : Fares w q calls stage) (hr : w.service.hub.Regular)
    (hp : w'.player q.caller = w.player q.caller)
    (hrun : Hub.Later w.service.hub w'.service.hub)
    (hkept : ∀ {id n i m t}, Manned w q id n i m t → ∃ m' t' more, Manned w' q id n i m' t' ∧
      m'.delivered = m.delivered ++ more) : Fares w' q calls stage := by
  have enrols {id : MatchId} (he : w.service.hub.Enrols (w.player q.caller) id) :
      w'.service.hub.Enrols (w'.player q.caller) id := by
    rw [hp]
    exact hr.enrols he hrun
  cases hf with
  | ready => exact .ready
  | joining ha =>
    exact .joining fun due creation room hq hroom => (ha due creation room hq hroom).imp_left enrols
  | starting he hnew => exact .starting (enrols he) hnew
  | playing hm hnew =>
    obtain ⟨m', t', -, hm', -⟩ := hkept hm
    exact .playing hm' hnew
  | cancelling he => exact .cancelling (enrols he)
  | dismissing he => exact .dismissing (enrols he)
  | failed => exact .failed
  | met hm hnew hhosted hd hfirst =>
    obtain ⟨m', t', more, hm', hd'⟩ := hkept hm
    rw [hd, List.cons_append] at hd'
    exact .met hm' hnew hhosted hd' hfirst

/-- Nothing happens to the session but to its agent, and anybody calls the hub. -/
theorem Watched.carry (hw : Watched k invite timing calls w q)
    (hq : w'.quests[k]? = w.quests[k]?) (hp : w'.player q.caller = w.player q.caller)
    (hrun : Hub.Later w.service.hub w'.service.hub)
    (hkept : ∀ {id n i m t}, Manned w q id n i m t → ∃ m' t' more, Manned w' q id n i m' t' ∧
      m'.delivered = m.delivered ++ more) : Watched k invite timing calls w' q where
  here := hq.trans hw.here
  side := hw.side
  timing := hw.timing
  regular := hw.regular.later hrun
  left id hid := by
    rw [hp]
    exact hw.regular.enrols (hw.left id hid) hrun
  fares := hw.fares.carry hw.regular hp hrun hkept

theorem Watched.other (hw : Watched k invite timing calls w q) (ho : Minds k w w') :
    Watched k invite timing calls w' q := by
  cases ho with
  | @step q₁ i words _ hq hi hb =>
    obtain rfl := Option.some.inj (hq.symm.trans hw.here)
    obtain ⟨m, agent, marks, hm, -, rfl⟩ := carryOut_of_stepRendezvous hb
    obtain ⟨htends, hub⟩ := tends_carryOut hm agent (marks.map Agent.Mark.effect)
    refine hw.carry (by rw [htends.quests]) (htends.player _) hub.later ?_
    intro id n i' m' t hman
    obtain rfl := Option.some.inj (hman.member.symm.trans hi)
    exact hman.step hw.regular hb
  | @task q₁ i j _ hq hi hb =>
    obtain rfl := Option.some.inj (hq.symm.trans hw.here)
    obtain ⟨m, hm, agent, htoils, htends⟩ := toiled_stepTask hb
    refine hw.carry (by rw [htends.quests]) (htends.player _) htoils.later ?_
    intro id n i' m' t hman
    obtain rfl := Option.some.inj (hman.member.symm.trans hi)
    obtain ⟨m', t', hman', hd⟩ := hman.task hw.regular hb
    exact ⟨m', t', [], hman', by simpa using hd⟩
  | @poll q₁ i m meeting hq hresult hi hm hnone =>
    obtain rfl := Option.some.inj (hq.symm.trans hw.here)
    have hhere := getElem?_modifyMember hm fun m => { m with taken := m.roomGone?.2 }
    refine ⟨hq, hw.side, hw.timing, hw.regular, hw.left, ?_⟩
    have hfares := hw.fares
    rw [Session.result?_eq_some_iff.1 hresult] at hfares ⊢
    cases hfares with
    | @met _ i' m' t first rest hman hnew hhosted hd hfirst =>
      obtain rfl := Option.some.inj (hman.member.symm.trans hi)
      obtain rfl := Option.some.inj (hman.here.symm.trans hm)
      have hkept := hman.later hw.regular ⟨rfl, rfl, rfl, rfl⟩ hhere rfl rfl rfl rfl .refl
      rw [show Member.taken { m' with taken := m'.roomGone?.2 } = 1 from
        hman.taken_of_none hw.side hd hfirst hnone] at hkept
      exact .met hkept hnew hhosted hd hfirst
  | aside hq hsame hrun =>
    obtain ⟨hplayer, hmembers⟩ := hsame q hw.here
    refine hw.carry hq hplayer hrun ?_
    intro id n i m t hm
    have hkept := hm.aside hw.regular ((hmembers i hm.member).trans hm.here) hplayer hrun
    exact ⟨m, t, [], hkept, (List.append_nil _).symm⟩

/-! ## Steps of the session -/

/-- The answer to a request for a room tells of one to take part in, and of another one than
those before. -/
theorem fares_of_ask (hr : w.service.hub.Regular) (hq : w.quests[k]? = some q)
    (hs : Matchmaker.isSignedIn w.service q.caller = true)
    (hleft : ∀ id, .dismissMatch id ∈ calls → w.service.hub.Enrols (w.player q.caller) id)
    (hq' : (w.questAsk k q.caller).quests[k]? = some q') :
    Fares (w.questAsk k q.caller) q' (calls ++ [.createMatch .autoMatching]) .joining := by
  rw [questAsk_of_signedIn hs] at hq' ⊢
  obtain rfl := Option.some.inj (hq'.symm.trans (getElem?_modifyQuest (by exact hq) _))
  refine .joining fun due creation room ha hroom => ?_
  obtain ⟨-, rfl⟩ := Prod.ext_iff.1 (Option.some.inj ha)
  obtain ⟨m, hm, hsees, hnew⟩ := hr.exists_create (w.player q.caller)
  obtain rfl := Except.ok.inj (hm.symm.trans hroom)
  refine ⟨hsees.enrols, fun hid => ?_⟩
  exact hnew _ (hleft m.id (by simpa using hid)) rfl

/-- A host that has met somebody keeps the agent. -/
theorem questSettle_of_hosted {i : Nat} (hq : w.quests[k]? = some q) {meeting : Meeting}
    (hst : (q.session.advance input).stage = .ended (.ok meeting))
    (hh : meeting.hosted = true) : w.questSettle k i input = w.tellSession k input := by
  have hstage : (w.tellSession k input).sessionStage? k = some (.ended (.ok meeting)) := by
    rw [sessionStage?, tellSession, getElem?_modifyQuest hq, Option.map_some, hst]
  simp [questSettle, hstage, hh]

/-- The agent has told of a success, and nobody has heard more. -/
theorem fares_of_meet {id : MatchId} {meeting : Meeting} {i : Nat} {m : Member} {r : Report}
    (hf : Fares w q calls (.playing id)) (hr : w.service.hub.Regular)
    (hq : w.quests[k]? = some q)
    (hside : (q.session.advance input).side = q.session.side)
    (hst : (q.session.advance input).stage = .ended (.ok meeting))
    (hid : meeting.matchId = id) (hh : meeting.hosted = true) (hi : q.member = some i)
    (hm : w.members[i]? = some m) (hd : m.delivered[m.taken]? = some r)
    (hcomplete : r.isComplete = true)
    (hq' : ((w.modifyMember i fun m => { m with taken := m.taken + 1 }).questSettle k i
      input).quests[k]? = some q') :
    Fares ((w.modifyMember i fun m => { m with taken := m.taken + 1 }).questSettle k i input) q'
      calls (.ended (.ok meeting)) := by
  subst hid
  let v := w.modifyMember i fun m => { m with taken := m.taken + 1 }
  have hv : v.quests[k]? = some q := hq
  rw [questSettle_of_hosted hv hst hh] at hq' ⊢
  obtain rfl := Option.some.inj (hq'.symm.trans (getElem?_modifyQuest hv _))
  cases hf with
  | @playing _ i' m' t hman hnew =>
    obtain rfl := Option.some.inj (hman.member.symm.trans hi)
    obtain rfl := Option.some.inj (hman.here.symm.trans hm)
    let heard : Member := { m' with taken := m'.taken + 1 }
    have hkept : Manned (v.tellSession k input) { q with session := q.session.advance input }
        meeting.matchId heard.taken i' heard t :=
      hman.later hr ⟨rfl, rfl, rfl, hside⟩
        (getElem?_modifyMember hm fun m => { m with taken := m.taken + 1 }) rfl rfl rfl rfl .refl
    rw [show heard.taken = 1 by simp [heard, hman.taken]] at hkept
    rw [hman.taken, ← List.head?_eq_getElem?, List.head?_eq_some_iff] at hd
    obtain ⟨rest, hd⟩ := hd
    exact .met hkept hnew hh hd hcomplete

theorem fares_of_advances (hw : Watched k invite timing calls w q)
    (hp : Advances k w q input new w') (hq' : w'.quests[k]? = some q')
    (hs : q'.session = q.session.advance input) (hcaller : q'.caller = q.caller) :
    Fares w' q' (calls ++ new) q'.session.stage := by
  have hl := Session.leads_advance hp.awaits
  have hf := hw.fares
  have enrols {id : MatchId} (he : w.service.hub.Enrols (w.player q.caller) id) :
      w'.service.hub.Enrols (w'.player q'.caller) id := by
    rw [hcaller, hp.player]
    exact hw.regular.enrols he hp.service.1
  obtain ⟨i, hi⟩ : ∃ i, i = input := ⟨_, rfl⟩
  rw [← hi] at hl hs
  rw [hs]
  generalize hadv : q.session.advance i = s' at hl
  cases hl with
  | exhausted | signedOut | rejected | unable | lose | silenced => exact .failed
  | refused | dismissed => exact .ready
  | giveUp hst =>
    rw [hst] at hf
    cases hf with
    | playing hm => exact .cancelling (enrols hm.enrols)
  | cancelled hst =>
    rw [hst] at hf
    cases hf with
    | cancelling he => exact .dismissing (enrols he)
  | ask hst hex =>
    cases hp with
    | ask _ _ hsigned => exact fares_of_ask hw.regular hw.here hsigned hw.left hq'
    | exhausted _ hex' => exact absurd (hex.symm.trans hex') Bool.false_ne_true
    | _ => cases hi
  | join room hst =>
    rw [hst] at hf
    cases hp with
    | join _ ha =>
      cases hf with
      | joining hanswer =>
        obtain ⟨he, hnew⟩ := hanswer _ _ room ha (SessionInput.answered.inj hi).symm
        exact .starting (enrols he) (by simpa using hnew)
    | _ => cases hi
  | play hst =>
    rw [hst] at hf
    cases hp with
    | start hst' =>
      obtain rfl := SessionStage.starting.inj (hst.symm.trans hst')
      cases hf with
      | starting he hnew =>
        have hsigned := SessionInput.started.inj hi
        obtain ⟨m, t, hm⟩ := manned_questStart hw.regular hw.here hst hsigned.symm he hq'
        exact .playing hm (by simpa using hnew)
    | _ => cases hi
  | meet signedIn hst hr =>
    rw [hst] at hf
    cases hp with
    | hear _ hi' hm hd =>
      obtain ⟨rfl, rfl⟩ := SessionInput.heard.inj hi
      rw [List.append_nil]
      refine fares_of_meet hf hw.regular hw.here ?_ ?_ rfl ?_ hi' hm hd ?_ hq'
      · rw [hadv]
        rfl
      · rw [hadv]
        rfl
      · rw [hw.side]
        rfl
      · exact Report.isComplete_of_toResult hr
    | _ => cases hi

/-- A session dismisses no room but the one that it is in. -/
theorem Watched.enrols_of_dismissMatch (hw : Watched k invite timing calls w q)
    (hp : Advances k w q input new w') {id : MatchId} (hid : .dismissMatch id ∈ new) :
    w.service.hub.Enrols (w.player q.caller) id := by
  have hf := hw.fares
  cases hp with
  | dismiss hst =>
    obtain rfl := Call.dismissMatch.inj (List.mem_singleton.1 hid)
    rw [hst] at hf
    cases hf with
    | dismissing he => exact he
  | _ => simp at hid

theorem Watched.own (hw : Watched k invite timing calls w q) (hb : w.stepSession? k = some w') :
    ∃ q', Watched k invite timing (calls ++ w.callsSince w') w' q' := by
  obtain ⟨q₁, input, new, hq₁, hp⟩ := advances_of_stepSession hb
  obtain rfl := Option.some.inj (hq₁.symm.trans hw.here)
  have hl := Session.leads_advance hp.awaits
  obtain ⟨q', hq', hs, hcaller, -, htiming⟩ := hp.quest hw.here
  rw [hp.callsSince]
  refine ⟨q', hq', ?_, htiming.trans hw.timing, hw.regular.later hp.service.1, ?_,
    fares_of_advances hw hp hq' hs hcaller⟩
  · rw [hs, hl.side, hw.side]
  · intro id hid
    rw [hcaller, hp.player]
    refine hw.regular.enrols ?_ hp.service.1
    rcases List.mem_append.1 hid with hid | hid
    · exact hw.left id hid
    · exact hw.enrols_of_dismissMatch hp hid

theorem watched_of_pursues {w₀ : World Lobby} {inputs : List SessionInput}
    (hr : w₀.service.hub.Regular) {q₀ : Quest} (hq₀ : w₀.quests[k]? = some q₀)
    (hside : q₀.session.side = .host invite) (hst : q₀.session.stage = .ready)
    (hrun : Pursues (Minds k) k w₀ inputs calls w) :
    ∃ q, Watched k invite q₀.timing calls w q := by
  induction hrun with
  | nil =>
    refine ⟨q₀, hq₀, hside, rfl, hr, nofun, ?_⟩
    rw [hst]
    exact .ready
  | own _ hb ih =>
    obtain ⟨q, hw⟩ := ih
    exact hw.own hb
  | other _ ho ih =>
    obtain ⟨q, hw⟩ := ih
    exact ⟨q, hw.other ho⟩

/-- The session of a host is run over a lobby from its beginning, with any configuration,
and whatever happens around it its agent is not let go of.  If it was won, its room is
hosted, and the session itself has not dismissed it.  If the agent is not told to dismiss
what it has finished, then it starts no dismissal, and the room is said to be gone only when
it is lost to the player, for having been removed; until then the agent watches it.  But if
it is told to, the room is said to be gone at once, as if the service were lost. -/
theorem hosted_room_watched {w₀ : World Lobby} {inputs : List SessionInput}
    (hr : w₀.service.hub.Regular) {q₀ : Quest} (hq₀ : w₀.quests[k]? = some q₀)
    (hside : q₀.session.side = .host invite) (hst : q₀.session.stage = .ready)
    (hrun : Pursues (Minds k) k w₀ inputs calls w) :
    ∃ q, w.quests[k]? = some q ∧
      (q₀.timing.dismissOnFinish ≠ some true → q.session.stage.inHand?.isSome = true →
        ∀ i, q.member = some i → ∀ words w', w.stepRendezvous? i words = some w' →
          w'.dismissals = w.dismissals) ∧
      ∀ meeting, q.session.result? = some (.ok meeting) →
        meeting.hosted = true ∧ .dismissMatch meeting.matchId ∉ calls ∧
        ∃ i m, q.member = some i ∧ w.members[i]? = some m ∧
          (q₀.timing.dismissOnFinish ≠ some true →
            m.roomGone?.1 = none ∧ m.agent.phase = .monitoring ∨
              m.roomGone?.1 = some ⟨meeting.matchId, .matchRemoved⟩ ∧
                w.service.hub.Lost (w.player q.caller) meeting.matchId) ∧
          (q₀.timing.dismissOnFinish = some true →
            m.roomGone?.1 = some ⟨meeting.matchId, .fatalError .serviceClosed⟩) := by
  obtain ⟨q, hw⟩ := watched_of_pursues hr hq₀ hside hst hrun
  have hfares := hw.fares
  rw [← hw.timing]
  refine ⟨q, hw.here, ?_, ?_⟩
  · intro hdis hhand i hi words w' hb
    have hleaves := mt (leaves_iff_of_host hw.side q.timing).1 hdis
    generalize q.session.stage = stage at hfares hhand
    cases hfares with
    | playing hm =>
      obtain rfl := Option.some.inj (hm.member.symm.trans hi)
      exact (hm.dismissals hw.regular hb).resolve_right fun h => hleaves h.1
    | met hm =>
      obtain rfl := Option.some.inj (hm.member.symm.trans hi)
      exact (hm.dismissals hw.regular hb).resolve_right fun h => hleaves h.1
    | _ => cases hhand
  · intro meeting hresult
    rw [Session.result?_eq_some_iff.1 hresult] at hfares
    cases hfares with
    | @met _ i m t first rest hm hnew hhosted hd hfirst =>
      obtain ⟨hstays, hleaves⟩ := hm.roomGone hw.side hd hfirst
      refine ⟨hhosted, hnew, i, m, hm.member, hm.here, fun hdis => ?_, hleaves⟩
      exact (hstays hdis).imp_left fun ⟨hgone, hphase⟩ => ⟨congrArg Prod.fst hgone, hphase⟩

end Watched

/-! ## A host whose room runs out of time -/

/-- All parts of a world but the other sessions are minded. -/
theorem minds_of_step {k : Nat} {w w' : World Lobby} {words : List UInt64} {part : Part}
    (hpart : ∀ k', part ≠ .session k') (hb : w.step? words part = some w') : Minds k w w' := by
  -- a member that plays for another makes a move
  have member {i : Nat} {m m' : Member} {ds : List (Caller × MatchId)} (ht : Tends i m' ds w w')
      (hrun : Hub.Later w.service.hub w'.service.hub)
      (hi : ∀ q, w.quests[k]? = some q → q.member ≠ some i) : Minds k w w' :=
    .aside (by rw [ht.quests]) (fun q hq => ⟨ht.player _, fun y hy =>
      ht.others y fun hiy => hi q hq (hiy ▸ hy)⟩) hrun
  cases part with
  | rendezvous i =>
    by_cases hi : ∃ q, w.quests[k]? = some q ∧ q.member = some i
    · obtain ⟨q, hq, hi⟩ := hi
      exact .step hq hi hb
    · obtain ⟨m, agent, marks, hm, -, rfl⟩ := carryOut_of_stepRendezvous hb
      obtain ⟨ht, hub⟩ := tends_carryOut hm agent (marks.map Agent.Mark.effect)
      exact member (m := m) ht hub.later fun q hq h => hi ⟨q, hq, h⟩
  | task i j =>
    by_cases hi : ∃ q, w.quests[k]? = some q ∧ q.member = some i
    · obtain ⟨q, hq, hi⟩ := hi
      exact .task hq hi hb
    · obtain ⟨m, hm, agent, htoils, ht⟩ := toiled_stepTask hb
      exact member (m := m) ht htoils.later fun q hq h => hi ⟨q, hq, h⟩
  | dismissal d =>
    obtain ⟨acts, hmembers, hquests⟩ := acts_of_stepDismissal hb
    exact .aside (by rw [hquests])
      (fun q _ => ⟨player_congr acts.handles_eq _, fun _ _ => by rw [hmembers]⟩)
      (later_of_acts acts)
  | session k' => exact absurd rfl (hpart k')

/-- Ann hosts an invite. -/
def hostQuest (timing : Timing) : Quest :=
  { caller := 0
    probes := { usual := ⟨.reachable, .zero⟩ }
    timing
    session := { side := .host "abc", maxAttempts := some 5 } }

def hostWorld (timing : Timing) : World Lobby :=
  { service := (({} : Lobby).connect "ann" ⟨"ann"⟩).1, quests := [hostQuest timing] }

/-- All that happens until ann's session is won. -/
def hostMoves : List Part :=
  [.session 0, .session 0, .session 0, .rendezvous 0, .task 0 0, .rendezvous 0, .session 0]

theorem pursues_hostMoves (timing : Timing) : ∃ inputs calls,
    Pursues (Minds 0) 0 (hostWorld timing) inputs calls ((hostWorld timing).moves hostMoves) :=
  ⟨_, _, pursues_moves hostMoves (by simp [hostMoves])
    (fun _ _ hpart _ _ => minds_of_step hpart) .nil⟩

/-- Ann's room runs out of time, and her agent hears of it. -/
theorem hosted_room_watched_until_it_expires :
    let won := (hostWorld {}).moves hostMoves
    let hub := (won.service.hub.expire ⟨"#1"⟩).1
    let w := { won with service := { won.service with hub } }.moves [.task 0 1, .rendezvous 0]
    ∃ inputs calls, Pursues (Minds 0) 0 (hostWorld {}) inputs calls w ∧
      ∃ q m, w.quests[0]? = some q ∧ w.members[0]? = some m ∧
        q.session.result? = some (.ok ⟨⟨"#1"⟩, none, 1, true⟩) ∧
        m.roomGone?.1 = some ⟨⟨"#1"⟩, .matchRemoved⟩ ∧
        w.service.hub.Lost (w.player q.caller) ⟨"#1"⟩ := by
  intro won hub w
  obtain ⟨_, _, hrun⟩ := pursues_hostMoves {}
  have expires : Minds 0 won { won with service := { won.service with hub } } :=
    .aside rfl (fun _ _ => ⟨rfl, fun _ _ => rfl⟩) (.one (a := .expire ⟨"#1"⟩) trivial)
  have hrun := pursues_moves [.task 0 1, .rendezvous 0] (by simp)
    (fun _ _ hpart _ _ => minds_of_step hpart) (hrun.other expires)
  obtain ⟨q, hq, -, hresult⟩ := hosted_room_watched Hub.regular_empty rfl rfl rfl hrun
  have hwon : (w.quests[0]?.bind fun q => q.session.result?) =
      some (.ok ⟨⟨"#1"⟩, none, 1, true⟩) := by decide +kernel
  have hmember : (w.quests[0]?.bind fun q => q.member) = some 0 := by decide +kernel
  have hphase : (w.members[0]?.map fun m => m.agent.phase) = some .finished := by decide +kernel
  rw [hq, Option.bind_some] at hwon hmember
  obtain ⟨-, -, i, m, hi, hm, hstays, -⟩ := hresult _ hwon
  obtain rfl := Option.some.inj (hi.symm.trans hmember)
  rw [hm, Option.map_some] at hphase
  refine ⟨_, _, hrun, q, m, hq, hm, hwon, ?_⟩
  rcases hstays (by simp [hostQuest]) with ⟨-, hwatching⟩ | hgone
  · cases hwatching.symm.trans (Option.some.inj hphase)
  · exact hgone

/-- Ann's agent is told to dismiss what it has finished. -/
theorem hosted_room_lost_at_once :
    let w := (hostWorld { dismissOnFinish := some true }).moves hostMoves
    (∃ inputs calls,
      Pursues (Minds 0) 0 (hostWorld { dismissOnFinish := some true }) inputs calls w) ∧
      (w.quests[0]?.bind fun q => q.session.result?) =
        some (.ok ⟨⟨"#1"⟩, none, 1, true⟩) ∧
      (w.members[0]?.bind fun m => m.roomGone?.1) =
        some ⟨⟨"#1"⟩, .fatalError .serviceClosed⟩ ∧
      ¬w.service.hub.Lost ⟨"ann"⟩ ⟨"#1"⟩ :=
  ⟨pursues_hostMoves _, by decide +kernel, by decide +kernel, by decide +kernel⟩

end World

end TurnRendezvous
