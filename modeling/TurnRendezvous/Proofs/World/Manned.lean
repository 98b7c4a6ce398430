/-
# `World.Manned` — the agent of a session

A session plays its room with an agent of its own, which it has started itself and does
not let go of before it has judged the room.  `Manned` says how this agent stands; all
that goes on in the world keeps it so, and what the agent tells only grows.

* `manned_questStart`: the agent is there once it was started;
* `Manned.step`, `Manned.task`, `Manned.later`: and goes on;
* `Manned.dismissals`: it has its match dismissed with the word of a success only.
-/
import TurnRendezvous.Proofs.Agent.Tended
import TurnRendezvous.Proofs.World.Pursuit

namespace TurnRendezvous

namespace World

/-- The member `m` at `i` has the agent that plays the match `id` for the session of `q`,
has told what is in `t`, and was heard `n` times. -/
structure Manned (w : World Lobby) (q : Quest) (id : MatchId) (n i : Nat) (m : Member)
    (t : List Agent.Stage) : Prop where
  member : q.member = some i
  here : w.members[i]? = some m
  caller : m.caller = q.caller
  enrols : w.service.hub.Enrols (w.player q.caller) id
  tended : m.agent.Tended q.session.side.role q.timing (w.player q.caller) id w.service.hub t
  told : m.delivered = (Agent.callbacks t).map Agent.Callback.report
  taken : m.taken = n

section Manned
variable {w w' : World Lobby} {q q' : Quest} {id : MatchId} {n i k : Nat} {m m' : Member}
  {t : List Agent.Stage}

/-- A change that leaves the agent and what it has told alone. -/
theorem Manned.later (hm : Manned w q id n i m t) (hr : w.service.hub.Regular)
    (hq : q'.member = q.member ∧ q'.caller = q.caller ∧ q'.timing = q.timing ∧
      q'.session.side = q.session.side)
    (hhere : w'.members[i]? = some m') (ha : m'.agent = m.agent) (hc : m'.caller = m.caller)
    (hd : m'.delivered = m.delivered) (hp : w'.player q.caller = w.player q.caller)
    (hrun : Hub.Later w.service.hub w'.service.hub) : Manned w' q' id m'.taken i m' t := by
  obtain ⟨hmember, hcaller, htiming, hside⟩ := hq
  refine ⟨hmember.trans hm.member, hhere, ?_, ?_, ?_, hd.trans hm.told, rfl⟩
  · rw [hc, hm.caller, hcaller]
  · rw [hcaller, hp]
    exact hr.enrols hm.enrols hrun
  · rw [ha, hcaller, htiming, hside, hp]
    exact hm.tended.later hr hm.enrols hrun

/-- The member is left alone, whatever else happens. -/
theorem Manned.aside (hm : Manned w q id n i m t) (hr : w.service.hub.Regular)
    (hhere : w'.members[i]? = some m) (hp : w'.player q.caller = w.player q.caller)
    (hrun : Hub.Later w.service.hub w'.service.hub) : Manned w' q id n i m t := by
  have hkept := hm.later hr ⟨rfl, rfl, rfl, rfl⟩ hhere rfl rfl rfl hp hrun
  rwa [hm.taken] at hkept

theorem Manned.task (hm : Manned w q id n i m t) (hr : w.service.hub.Regular) {j : JobId}
    (hb : w.stepTask? i j = some w') :
    ∃ m' t', Manned w' q id n i m' t' ∧ m'.delivered = m.delivered := by
  obtain ⟨m₁, hm₁, agent, htoils, htends⟩ := toiled_stepTask hb
  obtain rfl := Option.some.inj (hm.here.symm.trans hm₁)
  have hplayer := htends.player q.caller
  rw [hm.caller] at htoils
  obtain ⟨t', ht', hcalls⟩ := Agent.tended_toils hm.tended hr hm.enrols htoils
  refine ⟨_, t', ⟨hm.member, htends.here, hm.caller, ?_, ?_, ?_, hm.taken⟩, rfl⟩
  · rw [hplayer]
    exact hr.enrols hm.enrols htoils.later
  · rw [hplayer]
    exact ht'
  · rw [hcalls]
    exact hm.told

/-- The reports that reach the owner are those of the callbacks. -/
theorem report_of_marks (marks : List Agent.Mark) :
    (marks.map Agent.Mark.effect).filterMap Effect.report? =
      (marks.filterMap Agent.Mark.callback?).map Agent.Callback.report := by
  induction marks with
  | nil => rfl
  | cons mark marks ih =>
    cases mark <;>
      simp [List.filterMap_cons, Agent.Mark.effect, Effect.report?, Agent.Mark.callback?, ih]

/-- The agent has made a step. -/
theorem Manned.carryOut (hm : Manned w q id n i m t) (hr : w.service.hub.Regular)
    {s : Surroundings} {agent : Agent} {marks : List Agent.Mark}
    (hstep : m.agent.stepWithin? s [] = some (agent, marks)) :
    Manned (w.carryOut i m agent (marks.map Agent.Mark.effect)) q id n i
      { m with
        agent
        delivered := m.delivered ++ (marks.map Agent.Mark.effect).filterMap Effect.report? }
      (t ++ [⟨m.agent, .step s [], marks, agent⟩]) := by
  obtain ⟨htends, hub⟩ := tends_carryOut hm.here agent (marks.map Agent.Mark.effect)
  rw [hm.caller] at hub
  have ht' := Agent.tended_step hm.tended hstep
  refine ⟨hm.member, htends.here, hm.caller, ?_, ?_, ?_, hm.taken⟩
  · rw [htends.player]
    exact hr.enrols hm.enrols hub.later
  · rw [htends.player]
    exact ht'.later hr hm.enrols hub.later
  · rw [Agent.callbacks_snoc, List.map_append, ← hm.told, ← report_of_marks]

theorem Manned.step (hm : Manned w q id n i m t) (hr : w.service.hub.Regular)
    {words : List UInt64} (hb : w.stepRendezvous? i words = some w') :
    ∃ m' t' more, Manned w' q id n i m' t' ∧ m'.delivered = m.delivered ++ more := by
  obtain ⟨m₁, agent, marks, hm₁, hstep, rfl⟩ := carryOut_of_stepRendezvous hb
  obtain rfl := Option.some.inj (hm.here.symm.trans hm₁)
  exact ⟨_, _, _, hm.carryOut hr hstep, rfl⟩

/-- The agent starts a dismissal if its match is to be dismissed after a success, which it
tells of in the same step. -/
theorem Manned.dismissals (hm : Manned w q id n i m t) (hr : w.service.hub.Regular)
    {words : List UInt64} (hb : w.stepRendezvous? i words = some w') :
    w'.dismissals = w.dismissals ∨
      q.timing.dismissOnFinish.getD q.session.side.role.leavesByDefault = true ∧
        ∃ m' r, w'.members[i]? = some m' ∧ m'.delivered = [r] ∧ r.isComplete = true := by
  obtain ⟨m₁, agent, marks, hm₁, hstep, rfl⟩ := carryOut_of_stepRendezvous hb
  obtain rfl := Option.some.inj (hm.here.symm.trans hm₁)
  by_cases hd : .dismissed ∈ marks.map Agent.Mark.effect
  · obtain ⟨hdis, c, hc, hcomplete⟩ := hm.tended.dismisses hstep hd
    have hm' := hm.carryOut hr hstep
    exact .inr ⟨hdis, _, c.report, hm'.here, by rw [hm'.told, hc]; rfl, hcomplete⟩
  · left
    have hnone : (marks.map Agent.Mark.effect).filterMap m.dismissal? = [] := by
      refine List.filterMap_eq_nil_iff.2 ?_
      rintro (_ | _ | _ | _) he
      case dismissed => exact absurd he hd
      all_goals rfl
    rw [(tends_carryOut hm.here agent _).1.dismissals, hnone, List.append_nil]

/-- The agent of a session is started on its room. -/
theorem manned_questStart (hr : w.service.hub.Regular) (hq : w.quests[k]? = some q)
    {room : Match} (hst : q.session.stage = .starting room)
    (hs : Matchmaker.isSignedIn w.service q.caller = true)
    (he : w.service.hub.Enrols (w.player q.caller) room.id)
    (hq' : (w.questStart k q room).quests[k]? = some q') :
    ∃ m t, Manned (w.questStart k q room) q' room.id 0 w.members.length m t := by
  obtain ⟨agent, hstart, heq⟩ := questStart_of_signedIn (k := k) hs room
  rw [heq] at hq' ⊢
  obtain rfl : _ = q' := by
    simpa [enlist, subscribe, hq] using hq'
  have hrun : Hub.Later w.service.hub (w.service.hub.subscribe (w.player q.caller)) :=
    .one (a := .subscribe (w.player q.caller)) trivial
  obtain ⟨t, ht, htold⟩ : ∃ t,
      agent.Tended q.session.side.role q.timing (w.player q.caller) room.id
        (w.service.hub.subscribe (w.player q.caller)) t ∧ Agent.callbacks t = [] :=
    ⟨_, (Agent.tended_start Agent.tended_ofRole hstart rfl).later hr he hrun, rfl⟩
  have hside : (q.session.advance (.started true)).side = q.session.side :=
    (Session.leads_advance (hst ▸ .started room true)).side
  refine ⟨{ recruit q with agent }, t, rfl, by simp [enlist, subscribe], rfl,
    hr.enrols he hrun, ?_, by rw [htold]; rfl, rfl⟩
  rw [hside]
  exact ht

end Manned

end World

end TurnRendezvous
