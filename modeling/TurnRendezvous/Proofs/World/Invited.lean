/-
# `World.invited_rendezvous_succeeds` — an invitation comes to its end in every order

Two agents that were gathered around an invitation stay so, whatever happens in whatever
order (`Unfolds`), as long as the guest keeps up with its feed.

* `gathered_of_unfolds`: they are gathered all along the way;
* `Gathered.settled`: where nothing can go on any more, both have succeeded;
* `invited_rendezvous_succeeds`: so the owners are told of nothing but success, and in the
  end each of them just once;
* `invited_guest_misses_turn`: a guest who does not keep up may wait forever.

Whether nothing can go on is decided by a look at the two agents and their jobs
(`atRest_iff`), so that a run can be followed to its end.
-/
import TurnRendezvous.Proofs.World.Agreement
import TurnRendezvous.Proofs.World.Gathering

namespace TurnRendezvous

namespace World

/-! ## Whether anything can go on -/

section Decision
variable {i k x : Nat} {id : MatchId} {w : World Lobby}

/-- Whether an agent can make a step is not a matter of chance. -/
theorem stepRendezvous?_eq_none_congr {words : List UInt64} (words' : List UInt64)
    (h : w.stepRendezvous? x words = none) : w.stepRendezvous? x words' = none := by
  simp only [stepRendezvous?, Option.bind_eq_bind, Option.bind_eq_none_iff] at h ⊢
  intro m hm
  cases hs : m.agent.step? (w.surroundings m.caller words') with
  | none => exact fun _ h => (Option.some_ne_none _ h.symm).elim
  | some step =>
    obtain ⟨step', hs'⟩ : ∃ step', m.agent.step? (w.surroundings m.caller words) = some step' := by
      unfold Agent.step? Agent.next? at hs ⊢
      split at hs
      · cases hs
      · split at hs
        · exact ⟨_, rfl⟩
        · exact ⟨_, rfl⟩
        · cases hs
    cases h m hm step' hs'

/-- A task that is not among the jobs of a member has nothing to do. -/
theorem stepTask?_eq_none_of_le {m : Member} {j : JobId} (hm : w.members[x]? = some m)
    (hj : m.jobs.length ≤ j) : w.stepTask? x j = none := by
  cases hr : m.agent.rendezvous with
  | none => simp [stepTask?, hm, hr]
  | some r =>
    have hnone : r.jobs.get? j = none := by
      simpa [Member.jobs, hr, Registry.get?] using hj
    simp [stepTask?, hm, hr, Agent.task?, hnone]

/-- What there is to look at before one knows that nothing can go on. -/
theorem atRest_iff :
    w.AtRest i k id ↔
      (∀ x ∈ [i, k], w.stepRendezvous? x [] = none ∧
        ∀ m ∈ w.members[x]?, ∀ j < m.jobs.length, w.stepTask? x j = none) ∧
      ∀ e ∈ w.dismissals, e.2 ≠ id := by
  constructor
  · intro hrest
    refine ⟨fun x hx => ⟨hrest (.rendezvous x) [] (by simpa [concerns] using hx), ?_⟩, ?_⟩
    · exact fun _ _ j _ => hrest (.task x j) [] (by simpa [concerns] using hx)
    · rintro e he rfl
      obtain ⟨n, hn⟩ := List.mem_iff_getElem?.1 he
      have hnone : w.stepDismissal? n = none := hrest (.dismissal n) [] (by simp [concerns, hn])
      simp [stepDismissal?, hn] at hnone
  · rintro ⟨hmembers, hdismissals⟩ part words hc
    cases part with
    | rendezvous x =>
      have hx := hmembers x (by simpa [concerns] using hc)
      exact stepRendezvous?_eq_none_congr words hx.1
    | task x j =>
      have hx := hmembers x (by simpa [concerns] using hc)
      cases hm : w.members[x]? with
      | none => simp [step?, stepTask?, hm]
      | some m =>
        by_cases hj : j < m.jobs.length
        · exact hx.2 m hm j hj
        · exact stepTask?_eq_none_of_le hm (Nat.le_of_not_lt hj)
    | dismissal n =>
      have hn : ∃ e, w.dismissals[n]? = some e ∧ e.2 = id := by
        simpa [concerns, Option.any_eq_true] using hc
      obtain ⟨e, he, hid⟩ := hn
      exact absurd hid (hdismissals e (List.mem_of_getElem? he))
    | session => cases hc

instance : Decidable (w.AtRest i k id) := decidable_of_iff _ atRest_iff.symm

end Decision

/-! ## Rows of moves -/

section Moves
variable {i k x : Nat} {id : MatchId} {w₀ w : World Lobby}

theorem Unfolds.mono {ok ok' : World Lobby → Prop} (h : ∀ w, ok w → ok' w)
    (hrun : Unfolds ok i k id w₀ w) : Unfolds ok' i k id w₀ w := by
  induction hrun with
  | nil => exact .nil
  | snoc _ hok hp ih => exact ih.snoc (h _ hok) hp

/-- Whether the feed of a member keeps all that was ever sent. -/
def hearsAll (w : World Lobby) (x : Nat) : Bool :=
  (w.members[x]?).all fun m =>
    decide ((w.service.hub.feed (w.player m.caller)).sent.length ≤ Hub.feedCapacity)

theorem keepsUp_of_hearsAll (h : w.hearsAll x = true) : w.KeepsUp x := by
  intro j v feed hwait
  simp only [World.wait?] at hwait
  split at hwait
  · cases hwait
  next m hm =>
    have hle : (w.service.hub.feed (w.player m.caller)).sent.length ≤ Hub.feedCapacity := by
      simpa [hearsAll, hm] using h
    split at hwait
    · obtain ⟨rfl, rfl⟩ := Prod.mk.inj (Option.some.inj hwait)
      exact Nat.le_add_left_of_le hle
    · cases hwait

theorem Unfolds.move {ok : World Lobby → Prop} (hrun : Unfolds ok i k id w₀ w) (hok : ok w)
    {part : Part} (hc : w.concerns i k id part = true) (htime : w.timesOut part = false) :
    Unfolds ok i k id w₀ (w.moves [part]) := by
  cases hs : w.step? [] part with
  | none => simpa [moves, hs] using hrun
  | some w' => simpa [moves, hs] using hrun.snoc hok (.step hc htime hs)

/-- Whether a row of parts may move while the member at `k` hears everything. -/
def isOrderly (i k : Nat) (id : MatchId) : List Part → World Lobby → Bool
  | [], _ => true
  | part :: parts, w =>
    w.hearsAll k && w.concerns i k id part && !w.timesOut part &&
      isOrderly i k id parts (w.moves [part])

theorem unfolds_moves (parts : List Part) :
    ∀ {w}, Unfolds (KeepsUp k) i k id w₀ w → isOrderly i k id parts w = true →
      Unfolds (KeepsUp k) i k id w₀ (w.moves parts) := by
  induction parts with
  | nil => exact fun hrun _ => hrun
  | cons part parts ih =>
    intro w hrun hin
    simp only [isOrderly, Bool.and_eq_true, Bool.not_eq_true'] at hin
    obtain ⟨⟨⟨hears, hc⟩, htime⟩, hin⟩ := hin
    exact ih (hrun.move (keepsUp_of_hearsAll hears) hc htime) hin

/-- Others call the hub, one after another. -/
def interrupted (w : World Lobby) (as : List Hub.Action) : World Lobby :=
  { w with service := { w.service with hub := as.foldl Hub.perform w.service.hub } }

theorem Unfolds.interrupted {ok : World Lobby → Prop} (hrun : Unfolds ok i k id w₀ w) (hok : ok w)
    {as : List Hub.Action} (ha : ∀ a ∈ as, a.names id = false) (hf : ∀ h, ∀ a ∈ as, a.Fresh h)
    (hs : ∀ m ∈ w.members, w.service.isSignedIn m.caller = true) :
    Unfolds ok i k id w₀ (w.interrupted as) :=
  hrun.snoc hok (.aside rfl rfl
    (fun _ _ _ hm => ⟨rfl, hs _ (List.mem_of_getElem? hm)⟩) rfl (Hub.elsewhere_foldl ha hf))

end Moves

/-! ## At rest -/

section AtRest
variable {I : Invitation} {i k : Nat} {t : Invitation.Hour} {w : World Lobby} {m m' : Member}
  {x : Nat}

theorem AtRest.step?_eq_none (hrest : w.AtRest i k I.id) (hx : x = i ∨ x = k)
    (hm : w.members[x]? = some m) : m.agent.step? (w.surroundings m.caller []) = none := by
  have hnone : w.stepRendezvous? x [] = none :=
    hrest (.rendezvous x) [] (by simpa [concerns] using hx)
  cases hs : m.agent.step? (w.surroundings m.caller []) with
  | none => rfl
  | some step => simp [stepRendezvous?, hm, hs] at hnone

/-- No turn is left to be handed over. -/
theorem AtRest.not_submit (hrest : w.AtRest i k I.id) (hx : x = i ∨ x = k)
    (hm : w.members[x]? = some m) {j : JobId} {task : Task} (ht : m.agent.task? j = some task)
    {data : Bytes} {next : Option PlayerId} {issued : Bool} :
    task.work ≠ .submit data next issued := by
  intro hwork
  have hnone : w.stepTask? x j = none := hrest (.task x j) [] (by simpa [concerns] using hx)
  obtain ⟨r, _, hr, -⟩ := Agent.exists_of_task? ht
  cases issued <;> simp [stepTask?, hm, hr, ht, hwork, stepSubmit?, Matchmaker.holdsTurns] at hnone

/-- Whoever waits at rest has read everything, and no turn was there. -/
theorem Gathered.call?_of_waiting (hg : Gathered I i k t w m m') (hrest : w.AtRest i k I.id)
    {j : JobId} {task : Task} {v : TurnWatch} (ht : m'.agent.task? j = some task)
    (hwork : task.work = .awaitTurn v) : I.call? t = none := by
  obtain ⟨r, _, hr, -⟩ := Agent.exists_of_task? ht
  have hnone : w.stepTask? k j = none := hrest (.task k j) [] (by simp [concerns])
  have hp : w.service.player m'.caller = I.guest := hg.guest.player
  simp only [stepTask?, hg.guest.here, Option.bind_eq_bind, Option.bind_some, hr, ht, hwork,
    stepTurnWatch?, Matchmaker.feed, hp] at hnone
  split at hnone
  · cases hnone
  · split at hnone
    next hposition =>
      rcases Invitation.visiting_task hg.visiting ht with
        ⟨_, -, hwork', -⟩ | ⟨v', hwork', -, hawaits, -⟩
      · cases hwork.symm.trans hwork'
      · obtain rfl := Work.awaitTurn.inj (hwork.symm.trans hwork')
        rw [← hawaits.call, hposition]
        simp [Feed.position]
    · cases hnone

/-- Where the two come to rest. -/
theorem Gathered.settled (hg : Gathered I i k t w m m') (hrest : w.AtRest i k I.id)
    (hm : m.agent.rendezvous ≠ none) (hm' : m'.agent.rendezvous ≠ none) :
    t = .left ∧ m.delivered = [⟨I.id, .complete none⟩] ∧ m.agent.phase = .monitoring ∧
      m'.delivered = [⟨I.id, .complete (some I.invite)⟩] := by
  have hstep := hrest.step?_eq_none (.inl rfl) hg.host.here
  have hstep' := hrest.step?_eq_none (.inr rfl) hg.guest.here
  rcases Invitation.hosting_settled hg.hosting hm hstep with
    ⟨j, task, _, _, _, ht, hwork⟩ | ⟨hlate, hd, hphase⟩
  · exact absurd hwork (hrest.not_submit (.inl rfl) hg.host.here ht)
  rcases Invitation.visiting_settled hg.visiting hm' hstep' with
    ⟨j, task, _, _, _, ht, hwork⟩ | ⟨j, task, v, ht, hwork, hearly⟩ | ⟨hleft, hd'⟩
  · exact absurd hwork (hrest.not_submit (.inr rfl) hg.guest.here ht)
  · obtain rfl := hearly.resolve_left hlate
    cases hg.call?_of_waiting hrest ht hwork
  · refine ⟨hleft.resolve_left ?_, hd, hphase, hd'⟩
    rintro rfl
    have hmem : (m'.caller, I.id) ∈ w.dismissals.filter (·.2 = I.id) := by
      simp [hg.dismissals]
    obtain ⟨n, hn⟩ := List.mem_iff_getElem?.1 (List.mem_of_mem_filter hmem)
    have hnone : w.stepDismissal? n = none := hrest (.dismissal n) [] (by simp [concerns, hn])
    simp [stepDismissal?, hn] at hnone

end AtRest

/-! ## A parlor -/

/-- Ann's invitation of bob. -/
def invited : Invitation := ⟨⟨"#2"⟩, ⟨"ann"⟩, ⟨"bob"⟩, "x", by decide, by decide⟩

/-- Bob is in a match with cy and dan, and ann has invited him to another one. -/
def parlor : World Lobby :=
  let hub := Hub.perform {} (.create ⟨"#1"⟩ ⟨"cy"⟩ ⟨[⟨"bob"⟩, ⟨"dan"⟩], false⟩)
  let hub := hub.perform (.create ⟨"#2"⟩ ⟨"ann"⟩ (.inviting ⟨"bob"⟩))
  let service := ((({ hub } : Lobby).connect "ann" ⟨"ann"⟩).1.connect "bob" ⟨"bob"⟩).1
  { service
    members := [
      { caller := 0, probes := ⟨⟨.reachable, .zero⟩, []⟩, agent := .ofRole (.host "x") {} },
      { caller := 1, probes := ⟨⟨.reachable, .zero⟩, []⟩,
        agent := .ofRole (.client none) { firstTurnWait := .zero } }] }

theorem opens_parlor : parlor.Opens invited 0 1 := by
  have hr := Hub.Reachable.empty.call
    (a := .create ⟨"#1"⟩ ⟨"cy"⟩ ⟨[⟨"bob"⟩, ⟨"dan"⟩], false⟩) (by decide)
  exact ⟨⟨_, hr, by decide +kernel, rfl⟩, ⟨_, ⟨rfl, rfl, rfl⟩, ⟨{}, rfl, rfl⟩, rfl⟩,
    ⟨_, ⟨rfl, rfl, rfl⟩, ⟨{ firstTurnWait := .zero }, rfl, rfl⟩, rfl⟩, rfl⟩

/-- Bob's agent waits for its turn, as long as it takes; then ann's agent is started and
its turn lands. -/
def parlor.offered : World Lobby :=
  let w := (parlor.start 1 (invited.opened.snapshot ⟨"bob"⟩)).2.moves [.rendezvous 1]
  (w.start 0 (invited.opened.snapshot ⟨"ann"⟩)).2.moves [.rendezvous 0, .task 0 0, .rendezvous 0]

theorem unfolds_offered : Unfolds (KeepsUp 1) 0 1 invited.id parlor parlor.offered := by
  have begins : Proceeds 0 1 invited.id parlor
      (parlor.start 1 (invited.opened.snapshot ⟨"bob"⟩)).2 := .start (.inr rfl) rfl rfl
  have here := Unfolds.nil.snoc (keepsUp_of_hearsAll (x := 1) (by decide +kernel)) begins
  have waiting := unfolds_moves [.rendezvous 1] here (by decide +kernel)
  have joined : Unfolds (KeepsUp 1) 0 1 invited.id parlor
      (World.start _ 0 (invited.opened.snapshot ⟨"ann"⟩)).2 :=
    waiting.snoc (keepsUp_of_hearsAll (by decide +kernel)) (.start (.inl rfl) rfl rfl)
  exact unfolds_moves [.rendezvous 0, .task 0 0, .rendezvous 0] joined (by decide +kernel)

/-- Bob's agent finds its turn, and all goes well. -/
def parlor.finished : World Lobby :=
  parlor.offered.moves
    [.task 1 0, .rendezvous 1, .task 0 1, .task 1 1, .rendezvous 1, .dismissal 0, .task 0 1]

/-! ## Success -/

section Unfolds
variable {I : Invitation} {i k : Nat} {w₀ w : World Lobby}

theorem gathered_of_unfolds (h₀ : w₀.Opens I i k) (hrun : Unfolds (KeepsUp k) i k I.id w₀ w) :
    ∃ t m m', Gathered I i k t w m m' := by
  induction hrun with
  | nil => exact ⟨_, gathered_of_opens h₀⟩
  | snoc _ hup hp ih =>
    obtain ⟨t, m, m', hg⟩ := ih
    exact gathered_of_proceeds hg hup hp

/-- A match was created for one guest, and the host and the guest have an agent each.
Whatever happens from then on, in whatever order: if nobody else touches the match, both
stay signed in, no wait runs out and the guest keeps up with its feed, then the host is
told of nothing but its own success, and the guest of nothing but the host's invite.  And
when both were started and nothing can go on, both were told that just once, the match is
active with two turns played and holds the invite, the guest sees it no longer, and the
host watches it. -/
theorem invited_rendezvous_succeeds (h₀ : w₀.Opens I i k)
    (hrun : Unfolds (KeepsUp k) i k I.id w₀ w) :
    ∃ m m', w.members[i]? = some m ∧ w.members[k]? = some m' ∧
      (m.delivered = [] ∨ m.delivered = [⟨I.id, .complete none⟩]) ∧
      (m'.delivered = [] ∨ m'.delivered = [⟨I.id, .complete (some I.invite)⟩]) ∧
      (w.AtRest i k I.id → m.agent.rendezvous ≠ none → m'.agent.rendezvous ≠ none →
        m.delivered = [⟨I.id, .complete none⟩] ∧
        m'.delivered = [⟨I.id, .complete (some I.invite)⟩] ∧
        (∃ r, w.service.hub.room? I.id = some r ∧ r.status = .active ∧ r.version = 2 ∧
          Payload.decode r.data = .invite I.invite I.nonempty) ∧
        w.service.hub.snapshot? I.id I.guest = none ∧ m.agent.phase = .monitoring) := by
  obtain ⟨t, m, m', hg⟩ := gathered_of_unfolds h₀ hrun
  refine ⟨m, m', hg.host.here, hg.guest.here, hg.hosting.told, hg.visiting.told, ?_⟩
  intro hrest hm hm'
  obtain ⟨rfl, hd, hphase, hd'⟩ := hg.settled hrest hm hm'
  refine ⟨hd, hd', ⟨I.left, hg.holds.room, rfl, rfl, Payload.decode_encode I.offer⟩, ?_, hphase⟩
  have hunseen : (I.room .left).isSeenBy I.guest = false :=
    Bool.eq_false_iff.2 fun h => (I.guest_sees_iff .left).1 h rfl
  simp [Hub.snapshot?, Hub.visible?, hg.holds.room, hunseen]

end Unfolds

theorem invited_rendezvous_succeeds_in_the_parlor :
    ∃ m m', parlor.Opens invited 0 1 ∧
      Unfolds (KeepsUp 1) 0 1 invited.id parlor parlor.finished ∧
      parlor.finished.members[0]? = some m ∧ parlor.finished.members[1]? = some m' ∧
      parlor.finished.AtRest 0 1 invited.id ∧
      m.delivered = [⟨invited.id, .complete none⟩] ∧
      m'.delivered = [⟨invited.id, .complete (some "x")⟩] ∧
      parlor.finished.service.hub.snapshot? invited.id ⟨"bob"⟩ = none ∧
      m.agent.phase = .monitoring := by
  have hrun : Unfolds (KeepsUp 1) 0 1 invited.id parlor parlor.finished :=
    unfolds_moves _ unfolds_offered (by decide +kernel)
  have hstarted : ∀ m ∈ parlor.finished.members, m.agent.rendezvous ≠ none := by decide +kernel
  have hrest : parlor.finished.AtRest 0 1 invited.id := by decide +kernel
  obtain ⟨m, m', hm, hm', -, -, hdone⟩ := invited_rendezvous_succeeds opens_parlor hrun
  obtain ⟨hd, hd', -, hgone, hphase⟩ :=
    hdone hrest (hstarted m (List.mem_of_getElem? hm)) (hstarted m' (List.mem_of_getElem? hm'))
  exact ⟨m, m', opens_parlor, hrun, hm, hm', hrest, hd, hd', hgone, hphase⟩

/-- Cy and dan take 64 turns in the match that they play with bob. -/
def chatter : List Hub.Action :=
  (List.replicate 32
    [.takeTurn ⟨"cy"⟩ ⟨"#1"⟩ [] (some ⟨"dan"⟩),
      .takeTurn ⟨"dan"⟩ ⟨"#1"⟩ [] (some ⟨"cy"⟩)]).flatten

/-- Bob is told of all these turns before his agent looks at ann's. -/
def parlor.interrupted : World Lobby := (parlor.offered.moves [.task 0 1]).interrupted chatter

/-- Bob's feed does not keep ann's turn long enough for his agent: nobody touches the match,
both are signed in, no wait runs out, and when nothing can go on any more bob's agent has
told nothing and ann's waits for him. -/
theorem invited_guest_misses_turn :
    let w := parlor.interrupted.moves [.task 1 0]
    parlor.Opens invited 0 1 ∧ Unfolds (fun _ => True) 0 1 invited.id parlor w ∧
      w.AtRest 0 1 invited.id ∧ (∀ m ∈ w.members, m.agent.rendezvous ≠ none) ∧
      w.members.map (·.delivered) = [[⟨invited.id, .complete none⟩], []] := by
  intro w
  have hosted : Unfolds (KeepsUp 1) 0 1 invited.id parlor (parlor.offered.moves [.task 0 1]) :=
    unfolds_moves _ unfolds_offered (by decide +kernel)
  have hchatter : ∀ a ∈ chatter, ∃ p q, a = .takeTurn p ⟨"#1"⟩ [] (some q) := by
    intro a ha
    obtain ⟨turns, hturns, ha⟩ := List.mem_flatten.1 ha
    obtain rfl := List.eq_of_mem_replicate hturns
    rcases List.mem_pair.1 ha with rfl | rfl
    · exact ⟨_, _, rfl⟩
    · exact ⟨_, _, rfl⟩
  have interrupted : Unfolds (fun _ => True) 0 1 invited.id parlor parlor.interrupted := by
    refine (hosted.mono fun _ _ => trivial).interrupted trivial ?_ ?_ (by decide +kernel)
    · intro a ha
      obtain ⟨p, q, rfl⟩ := hchatter a ha
      rfl
    · intro h a ha
      obtain ⟨p, q, rfl⟩ := hchatter a ha
      trivial
  have missed : Unfolds (fun _ => True) 0 1 invited.id parlor w :=
    interrupted.move trivial (by decide +kernel) (by decide +kernel)
  exact ⟨opens_parlor, missed, by decide +kernel, by decide +kernel, by decide +kernel⟩

end World

end TurnRendezvous
