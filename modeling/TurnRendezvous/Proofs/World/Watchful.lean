/-
# `World.Attended` — no watched room goes away unnoticed

The agent of one member is followed from its start on what its player saw just then, as
in `World.Course`; only that in between anybody may call the hub in any way, its own
player included (`Attends.aside`).  Whatever the other agents do is among that
(`attends_of_elsewhere`), so what holds of one agent holds of each of any number of them.

It is assumed that the agent keeps up with the feed of its player (`World.Abreast`).

* `guarded_of_attends`: whatever happens, the agent stays watchful;
* `end_never_missed`: so while it waits or watches, there is something left to tell it of
  the end.
-/
import TurnRendezvous.Proofs.Agent.Watchful
import TurnRendezvous.Proofs.World.Deeds
import TurnRendezvous.Proofs.World.Invited

namespace TurnRendezvous

namespace World

/-! ## What happens -/

/-- What can happen around the member at `i`, which is to play the match `id`. -/
inductive Attends (i : Nat) (id : MatchId) (w : World Lobby) : World Lobby → Prop
  /-- The agent is started on what its player sees now. -/
  | start {m : Member} {room : Match} :
      w.members[i]? = some m → w.service.hub.snapshot? id (w.player m.caller) = some room →
      Attends i id w (w.start i room).2
  | owner (c : OwnerCall) : Attends i id w (w.modifyAgent i (·.call c))
  /-- The rendezvous makes a step, and the owner makes calls in the callbacks. -/
  | step {m : Member} {words : List UInt64} {within : List OwnerCall} {agent : Agent}
      {marks : List Agent.Mark} :
      w.members[i]? = some m →
      m.agent.stepWithin? (w.surroundings m.caller words) within = some (agent, marks) →
      Attends i id w (w.carryOut i m agent (marks.map Agent.Mark.effect))
  | task {j : JobId} {w' : World Lobby} : w.stepTask? i j = some w' → Attends i id w w'
  /-- Anything else, with any calls of the hub by anybody. -/
  | aside {m m' : Member} {w' : World Lobby} :
      w.members[i]? = some m → w'.members[i]? = some m' → m'.agent = m.agent →
      m'.caller = m.caller → w'.player m.caller = w.player m.caller →
      Hub.Onward w.service.hub w'.service.hub → Attends i id w w'

/-- The agent of the member at `i` keeps up with the feed of its player. -/
def Abreast (i : Nat) (w : World Lobby) : Prop :=
  ∀ m, w.members[i]? = some m → m.agent.KeepsUp (w.player m.caller) w.service.hub

/-- What a row of such things leads to, if the agent keeps up all the way. -/
inductive Attended (i : Nat) (id : MatchId) (w₀ : World Lobby) : World Lobby → Prop
  | nil : Attended i id w₀ w₀
  | snoc {w w' : World Lobby} :
      Attended i id w₀ w → w.Abreast i → Attends i id w w' → Attended i id w₀ w'

/-- The steps of the other members and of their tasks, and all dismissals, are among what
may happen in between. -/
theorem attends_of_elsewhere {i : Nat} {id : MatchId} {w w' : World Lobby} {m : Member}
    (hm : w.members[i]? = some m) {words : List UInt64} {part : Part}
    (hpart : ∀ j, part ≠ .rendezvous i ∧ part ≠ .task i j) (hsession : ∀ k, part ≠ .session k)
    (hb : w.step? words part = some w') : Attends i id w w' := by
  have aside : ∀ {y : Nat} {m₁ : Member} {ds : List (Caller × MatchId)}, y ≠ i →
      Tends y m₁ ds w w' → Hub.Onward w.service.hub w'.service.hub → Attends i id w w' :=
    fun hy ht hrun => .aside hm ((ht.others i hy).trans hm) rfl rfl (ht.player _) hrun
  cases part with
  | rendezvous y =>
    obtain ⟨m₁, agent, marks, hm₁, -, rfl⟩ := carryOut_of_stepRendezvous hb
    obtain ⟨ht, hub⟩ := tends_carryOut hm₁ agent (marks.map Agent.Mark.effect)
    exact aside (fun h => (hpart 0).1 (by rw [h])) ht hub.onward
  | task y j =>
    obtain ⟨m₁, -, agent, htoils, ht⟩ := toiled_stepTask hb
    exact aside (fun h => (hpart j).2 (by rw [h])) ht htoils.onward
  | dismissal k =>
    obtain ⟨acts, hmembers, -⟩ := acts_of_stepDismissal hb
    refine .aside hm (by rw [hmembers, hm]) rfl rfl (player_congr acts.handles_eq _) ?_
    obtain ⟨⟨c, i'⟩, -, rfl⟩ := Option.map_eq_some_iff.1 hb
    show Hub.Onward w.service.hub (w.service.dismiss c i').1.hub
    rcases hub_dismiss w.service c i' with hub | hub <;> rw [hub]
    · exact .refl
    · exact .call .refl trivial
  | session k => exact absurd rfl (hsession k)

/-! ## What is kept -/

/-- The member `m` at `i` has an agent that cannot miss the end of the room `id`, once it
was started. -/
structure Guarded (p : PlayerId) (id : MatchId) (i : Nat) (w : World Lobby) (m : Member) :
    Prop where
  here : w.members[i]? = some m
  player : w.player m.caller = p
  reachable : w.service.hub.Reachable
  standing : m.agent.Standing
  watchful : m.agent.Watchful p id w.service.hub
  started : m.agent.rendezvous ≠ none →
    w.service.hub.Listens p ∧ w.service.hub.Enrols p id

section Guarded
variable {p : PlayerId} {id : MatchId} {i : Nat} {w w' : World Lobby} {m : Member}

/-- Calls by anybody. -/
theorem Guarded.onward (hg : Guarded p id i w m) {m' : Member} (hm : w'.members[i]? = some m')
    (ha : m'.agent = m.agent) (hc : m'.caller = m.caller)
    (hp : w'.player m.caller = w.player m.caller)
    (hrun : Hub.Onward w.service.hub w'.service.hub) : Guarded p id i w' m' := by
  obtain ⟨here, player, reachable, standing, watchful, started⟩ := hg
  refine ⟨hm, by rw [hc, hp, player], Hub.reachable_of_onward reachable hrun, ?_, ?_, ?_⟩
  · rw [ha]
    exact standing
  · rw [ha]
    cases hr : m.agent.rendezvous with
    | none => exact .unstarted hr
    | some r =>
      obtain ⟨hl, he⟩ := started (by simp [hr])
      exact Agent.watchful_onward watchful reachable hl he hrun
  · rw [ha]
    intro hr
    obtain ⟨hl, he⟩ := started hr
    exact ⟨Hub.listens_of_onward reachable hl hrun, Hub.enrols_of_onward reachable he hrun⟩

theorem guarded_start (hg : Guarded p id i w m) {room : Match}
    (hroom : w.service.hub.snapshot? id (w.player m.caller) = some room) :
    ∃ m', Guarded p id i (w.start i room).2 m' := by
  obtain ⟨here, rfl, reachable, standing, watchful, started⟩ := hg
  simp only [start, here]
  split
  · exact ⟨m, here, rfl, reachable, standing, watchful, started⟩
  next agent hb =>
    -- the place was taken before the player listened, and it is the same one afterwards
    have hb : m.agent.start? (w.service.isSignedIn m.caller) room
        ((w.service.hub.subscribe (w.player m.caller)).feed (w.player m.caller)).position =
          some agent := by
      rw [Hub.feed_subscribe]
      exact hb
    have hroom' : (w.service.hub.subscribe (w.player m.caller)).snapshot? id
        (w.player m.caller) = some room := by
      refine Eq.trans ?_ hroom
      exact congrFun (Hub.view_congr (Hub.rooms_subscribe _ _)) id
    have hmoves : m.agent.Moves _ [] agent := .start hb
    refine ⟨{ m with agent }, getElem?_modifyMember (w := w.subscribe m.caller) here _, rfl,
      reachable.call (a := .subscribe _) trivial, Agent.standing_of_moves standing hmoves,
      Agent.watchful_start standing hroom' hb, fun _ => ⟨?_, ?_⟩⟩
    · exact Hub.listens_of_subscribe reachable _
    · exact Hub.enrols_of_snapshot
        (Hub.sound_subscribe (Hub.reachable_sound reachable) _) hroom'

theorem guarded_carryOut (hg : Guarded p id i w m) {words : List UInt64}
    {within : List OwnerCall} {agent : Agent} {marks : List Agent.Mark}
    (hb : m.agent.stepWithin? (w.surroundings m.caller words) within = some (agent, marks)) :
    ∃ m', Guarded p id i (w.carryOut i m agent (marks.map Agent.Mark.effect)) m' := by
  obtain ⟨here, rfl, reachable, standing, watchful, started⟩ := hg
  have hmoves : m.agent.Moves _ marks agent := .step hb
  obtain ⟨ht, hub⟩ := tends_carryOut here agent (marks.map Agent.Mark.effect)
  have hstarted : m.agent.rendezvous ≠ none := by
    intro hr
    simp [Agent.stepWithin?, Agent.next?, hr] at hb
  -- the agent has moved, and then the hub may hear that it listens
  have moved : Guarded (w.player m.caller) id i (w.modifyAgent i fun _ => agent)
      { m with agent } :=
    ⟨getElem?_modifyMember here _, rfl, reachable, Agent.standing_of_moves standing hmoves,
      Agent.watchful_step standing watchful rfl hb, fun _ => started hstarted⟩
  exact ⟨_, moved.onward ht.here rfl rfl (ht.player _) hub.onward⟩

theorem guarded_stepTask (hg : Guarded p id i w m) (hup : w.Abreast i) {j : JobId}
    (hb : w.stepTask? i j = some w') : ∃ m', Guarded p id i w' m' := by
  obtain ⟨m', hm, agent, htoils, ht⟩ := toiled_stepTask hb
  obtain rfl := Option.some.inj (hg.here.symm.trans hm)
  obtain ⟨here, rfl, reachable, standing, watchful, started⟩ := hg
  obtain ⟨r, hr⟩ := htoils.started
  obtain ⟨hl, he⟩ := started (by simp [hr])
  have hwatchful := Agent.watchful_toils watchful (Hub.reachable_sound reachable) hl he
    (Hub.capacity_of_reachable reachable) (hup m hm) htoils
  exact ⟨_, ht.here, ht.player _, Hub.reachable_of_onward reachable htoils.onward,
    htoils.standing standing, hwatchful,
    fun _ => ⟨Hub.listens_of_onward reachable hl htoils.onward,
      Hub.enrols_of_onward reachable he htoils.onward⟩⟩

theorem guarded_of_attends (hg : Guarded p id i w m) (hup : w.Abreast i)
    (h : Attends i id w w') : ∃ m', Guarded p id i w' m' := by
  cases h with
  | start hm hroom =>
    obtain rfl := Option.some.inj (hg.here.symm.trans hm)
    exact guarded_start hg hroom
  | owner c =>
    have hsame := Agent.sameWork_call m.agent c
    exact ⟨_, getElem?_modifyMember hg.here _, hg.player, hg.reachable,
      hg.standing.congr hsame, hg.watchful.congr hsame,
      fun hr => hg.started (hsame.rendezvous ▸ hr)⟩
  | step hm hb =>
    obtain rfl := Option.some.inj (hg.here.symm.trans hm)
    exact guarded_carryOut hg hb
  | task hb => exact guarded_stepTask hg hup hb
  | aside hm hm' ha hc hp hrun =>
    obtain rfl := Option.some.inj (hg.here.symm.trans hm)
    exact ⟨_, hg.onward hm' ha hc hp hrun⟩

end Guarded

/-! ## Courses by hand -/

theorem abreast_of_hearsAll {i : Nat} {w : World Lobby} (h : w.hearsAll i = true) :
    w.Abreast i := by
  intro m hm r _ t _ n _
  have hle : (w.service.hub.feed (w.player m.caller)).sent.length ≤ Hub.feedCapacity := by
    simpa [hearsAll, hm] using h
  exact Nat.le_add_left_of_le hle

section Attended
variable {i : Nat} {id : MatchId} {w₀ w : World Lobby}

theorem Attended.nudge (h : Attended i id w₀ w) (hup : w.hearsAll i = true)
    (part : Option JobId) : Attended i id w₀ (w.nudge i part).2 := by
  have hup := abreast_of_hearsAll hup
  cases part with
  | some j =>
    simp only [World.nudge]
    split
    next hb => exact h.snoc hup (.task hb)
    next => exact h
  | none =>
    simp only [World.nudge]
    split
    · exact h
    next hm =>
      split
      next hb => exact h.snoc hup (.step hm hb)
      next => exact h

theorem Attended.called {m : Member} (h : Attended i id w₀ w) (hup : w.hearsAll i = true)
    (hm : w.members[i]? = some m) {a : Hub.Action} (hf : a.Fresh w.service.hub) :
    Attended i id w₀ (w.called a) :=
  h.snoc (abreast_of_hearsAll hup) (.aside hm hm rfl rfl rfl (.call .refl hf))

end Attended

/-! ## The end of a room -/

/-- An agent is started on what its player sees of a room just then, and keeps up with its
player's feed.  Whatever happens from then on, in whatever order and whoever calls the
hub: while the agent waits for its turn or watches the room, and the room is over or gone
or its player has turned away from it, there is something left to tell it.  Either an
update that says so, and that ends the very watch that the agent depends on, is still
unread there; or the end of that watch is on its way to the agent already. -/
theorem end_never_missed {w₀ w : World Lobby} {i : Nat} {id : MatchId} {m₀ : Member}
    {role : Role} {timing : Timing} (hhub : w₀.service.hub.Reachable)
    (hm₀ : w₀.members[i]? = some m₀) (ha : m₀.agent = .ofRole role timing)
    (hrun : Attended i id w₀ w) (hup : w.Abreast i) :
    ∀ m r, w.members[i]? = some m → m.agent.rendezvous = some r →
      r.phase = .waitingForTurn ∨ r.phase = .monitoring →
      w.service.hub.Lost (w.player m.caller) id →
      m.agent.Hears (w.player m.caller) id w.service.hub r := by
  obtain ⟨m', hg⟩ : ∃ m', Guarded (w₀.player m₀.caller) id i w m' := by
    clear hup
    induction hrun with
    | nil =>
      refine ⟨m₀, hm₀, rfl, hhub, ?_, .unstarted (by rw [ha]; rfl), ?_⟩
      · rw [ha]
        exact Agent.standing_ofRole role timing
      · intro hr
        exact absurd (by rw [ha]; rfl) hr
    | snoc _ hup h ih =>
      obtain ⟨m', hg⟩ := ih
      exact guarded_of_attends hg hup h
  intro m r hm hr hphase hl
  obtain rfl := Option.some.inj (hg.here.symm.trans hm)
  have hplayer := hg.player
  rw [hplayer] at hl ⊢
  exact hg.watchful.hears hg.standing (Hub.capacity_of_reachable hg.reachable)
    (hplayer ▸ hup m' hm) hr hphase hl

/-- Ann's agent has passed the match on to bob and waits; then the match runs out of time,
and before she has looked at her feed again, bob turns away from it. -/
theorem end_never_missed_when_a_room_expires :
    let c : MatchRequest := .inviting ⟨"bob"⟩
    ∃ w m r, Attended 0 ⟨"#1"⟩ (table c) w ∧ w.members[0]? = some m ∧
      m.agent.rendezvous = some r ∧ r.phase = .waitingForTurn ∧
      w.service.hub.Lost ⟨"ann"⟩ ⟨"#1"⟩ ∧ m.agent.Hears ⟨"ann"⟩ ⟨"#1"⟩ w.service.hub r := by
  intro c
  have started : Attended 0 ⟨"#1"⟩ (table c) ((table c).start 0 (firstSight c)).2 :=
    Attended.nil.snoc (abreast_of_hearsAll (by decide +kernel)) (.start rfl rfl)
  have decided := started.nudge (by decide +kernel) none
  have accepted := decided.nudge (by decide +kernel) (some 0)
  have waiting := accepted.nudge (by decide +kernel) none
  have expired := waiting.called (a := .expire ⟨"#1"⟩) (by decide +kernel) rfl trivial
  have run := expired.called (a := .dismiss ⟨"bob"⟩ ⟨"#1"⟩) (by decide +kernel) rfl trivial
  exact ⟨_, _, _, run, rfl, rfl, rfl, by decide +kernel,
    end_never_missed (reachable_table c) rfl rfl run (abreast_of_hearsAll (by decide +kernel))
      _ _ rfl rfl (.inl rfl) (by decide +kernel)⟩

end World

end TurnRendezvous
