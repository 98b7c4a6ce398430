/-
# `World.no_room_left_behind` — what a session gives up

A session is followed over a lobby.  Its player stays signed in and does nothing else on the
hub, and others do whatever they like (`World.Apart`).  Every room that the session gives up
is cancelled and then dismissed by it before it asks for another one, and then it is gone
for good.  For this the agent of the room must not have dismissed it before; that it
only does together with the word of a success, upon which the session keeps the room.

* `Keeps`: how a session, its room and its agent stand at each stage;
* `tidy_of_pursues`: so it goes on;
* `no_room_left_behind`: the calls of a session, and what becomes of its rooms.
-/
import TurnRendezvous.Proofs.Hub.Quitting
import TurnRendezvous.Proofs.World.Manned
import TurnRendezvous.Proofs.World.Policy

namespace TurnRendezvous

/-- The room that a session is in. -/
def SessionStage.room? : SessionStage → Option MatchId
  | .starting room => some room.id
  | .playing id => some id
  | .cancelling id _ => some id
  | .dismissing id _ => some id
  | .ended (.ok meeting) => some meeting.matchId
  | _ => none

/-- What a session has called in the attempt that it is in. -/
def SessionStage.called : SessionStage → List Call
  | .joining | .starting _ | .playing _ | .cancelling .. | .ended (.ok _) =>
    [.createMatch .autoMatching]
  | .dismissing id _ => [.createMatch .autoMatching, .cancelMatch id]
  | .ready | .ended (.error _) | .aborted => []

/-- The calls of an attempt whose room was given up. -/
def Call.ofAttempt (id : MatchId) : List Call :=
  [.createMatch .autoMatching, .cancelMatch id, .dismissMatch id]

/-- The room that a session hears of that it has joined. -/
def SessionInput.joined? : SessionInput → Option MatchId
  | .answered (.ok room) => some room.id
  | _ => none

namespace World

/-! ## What happens -/

/-- For the player of `c` nothing changes but by calls of the hub, and the player dismisses
nothing. -/
structure LeavesAlone (c : Caller) (w w' : World Lobby) : Prop where
  player : w'.player c = w.player c
  signedIn : Matchmaker.isSignedIn w.service c = true → Matchmaker.isSignedIn w'.service c = true
  members : ∀ (i : Nat) (m : Member), w'.members[i]? = some m ∧ w'.player m.caller = w'.player c ↔
    w.members[i]? = some m ∧ w.player m.caller = w.player c
  dismissals : ∀ d ∈ w'.dismissals, w'.player d.1 = w'.player c →
    d ∈ w.dismissals ∧ w.player d.1 = w.player c
  hub : Hub.Staying (w.player c) w.service.hub w'.service.hub

/-- What can happen around the session at `k` while its player does nothing else. -/
inductive Apart (k : Nat) (w : World Lobby) : World Lobby → Prop
  /-- An agent of the player makes a step. -/
  | step {q : Quest} {i : Nat} {m : Member} {words : List UInt64} {w' : World Lobby} :
      w.quests[k]? = some q → w.members[i]? = some m → w.player m.caller = w.player q.caller →
      w.stepRendezvous? i words = some w' → Apart k w w'
  | task {q : Quest} {i : Nat} {m : Member} {j : JobId} {w' : World Lobby} :
      w.quests[k]? = some q → w.members[i]? = some m → w.player m.caller = w.player q.caller →
      w.stepTask? i j = some w' → Apart k w w'
  /-- A dismissal that such an agent has started is carried out. -/
  | dismissal {q : Quest} {n : Nat} {d : Caller × MatchId} {w' : World Lobby} :
      w.quests[k]? = some q → w.dismissals[n]? = some d → w.player d.1 = w.player q.caller →
      w.stepDismissal? n = some w' → Apart k w w'
  /-- Others go on. -/
  | aside {w' : World Lobby} :
      w'.quests[k]? = w.quests[k]? →
      (∀ q, w.quests[k]? = some q → LeavesAlone q.caller w w') → Apart k w w'

/-! ## What is kept -/

/-- All agents of the player are done, and none of the player's dismissals is on its way. -/
structure Quiet (w : World Lobby) (p : PlayerId) : Prop where
  done : ∀ (i : Nat) (m : Member), w.members[i]? = some m → w.player m.caller = p →
    m.agent.mode = .ended
  settled : ∀ d ∈ w.dismissals, w.player d.1 ≠ p

/-- The same but for the agent `m` at `i`, which plays the match `id`: until it has told of
a success it has dismissed nothing. -/
structure Busy (w : World Lobby) (p : PlayerId) (id : MatchId) (i : Nat) (m : Member) : Prop where
  others : ∀ (j : Nat) (m' : Member), j ≠ i → w.members[j]? = some m' → w.player m'.caller = p →
    m'.agent.mode = .ended
  pending : ((∀ d ∈ w.dismissals, w.player d.1 ≠ p) ∧ w.service.hub.Sees p id) ∨
    ∃ first rest, m.delivered = first :: rest ∧ first.isComplete = true

/-- How a session that has given up the rooms `given` stands at each of its stages. -/
inductive Keeps (w : World Lobby) (q : Quest) (given : List MatchId) : SessionStage → Prop
  | ready : Quiet w (w.player q.caller) → Keeps w q given .ready
  /-- The service has a room for the player, and not one that was given up. -/
  | joining {due : Instant} {room : Match} :
      Quiet w (w.player q.caller) → q.answer = some (due, { result := .ok room }) →
      w.service.hub.Sees (w.player q.caller) room.id → room.id ∉ given → Keeps w q given .joining
  | starting {room : Match} :
      Quiet w (w.player q.caller) → w.service.hub.Sees (w.player q.caller) room.id →
      Keeps w q given (.starting room)
  | playing {id : MatchId} {i : Nat} {m : Member} {t : List Agent.Stage} :
      Manned w q id 0 i m t → Busy w (w.player q.caller) id i m → Keeps w q given (.playing id)
  | cancelling {id : MatchId} {why : Failure} :
      Quiet w (w.player q.caller) → w.service.hub.Sees (w.player q.caller) id →
      Keeps w q given (.cancelling id why)
  | dismissing {id : MatchId} {why : Failure} :
      Quiet w (w.player q.caller) → w.service.hub.Sees (w.player q.caller) id →
      w.service.hub.Over id → Keeps w q given (.dismissing id why)
  | ended {result : Except Failure Meeting} : Keeps w q given (.ended result)

/-- A session that is told `inputs` and makes the calls `calls` has given up the rooms
`given`, and stands well. -/
structure Tidy (k : Nat) (given : List MatchId) (inputs : List SessionInput) (calls : List Call)
    (w : World Lobby) (q : Quest) : Prop where
  here : w.quests[k]? = some q
  regular : w.service.hub.Regular
  signedIn : Matchmaker.isSignedIn w.service q.caller = true
  gone : ∀ id ∈ given, w.service.hub.Gone (w.player q.caller) id
  keeps : Keeps w q given q.session.stage
  joined : inputs.filterMap SessionInput.joined? = given ++ q.session.stage.room?.toList
  distinct : (given ++ q.session.stage.room?.toList).Nodup
  made : calls = given.flatMap Call.ofAttempt ++ q.session.stage.called

section Kept
variable {k i : Nat} {w w' : World Lobby} {q q' : Quest} {p : PlayerId} {id : MatchId}
  {m m' : Member} {given : List MatchId} {stage : SessionStage}

theorem Quiet.congr (h : Quiet w p) (hm : w'.members = w.members)
    (hd : w'.dismissals = w.dismissals) (hp : ∀ c, w'.player c = w.player c) : Quiet w' p := by
  refine ⟨fun j m hj hpm => ?_, fun d hd' => ?_⟩
  · rw [hm] at hj
    rw [hp] at hpm
    exact h.done j m hj hpm
  · rw [hd] at hd'
    rw [hp]
    exact h.settled d hd'

theorem Quiet.aside {c : Caller} (h : Quiet w (w.player c)) (ho : LeavesAlone c w w') :
    Quiet w' (w'.player c) := by
  refine ⟨fun j m hj hpm => ?_, fun d hd hpd => ?_⟩
  · obtain ⟨hj, hpm⟩ := (ho.members j m).1 ⟨hj, hpm⟩
    exact h.done j m hj hpm
  · obtain ⟨hd, hpd⟩ := ho.dismissals d hd hpd
    exact h.settled d hd hpd

theorem Busy.aside {c : Caller} (h : Busy w (w.player c) id i m) (ho : LeavesAlone c w w')
    (hr : w.service.hub.Regular) : Busy w' (w'.player c) id i m := by
  refine ⟨fun j m' hne hj hpm => ?_, h.pending.imp_left ?_⟩
  · obtain ⟨hj, hpm⟩ := (ho.members j m').1 ⟨hj, hpm⟩
    exact h.others j m' hne hj hpm
  · rintro ⟨hsettled, hsees⟩
    refine ⟨fun d hd hpd => ?_, ?_⟩
    · obtain ⟨hd, hpd⟩ := ho.dismissals d hd hpd
      exact hsettled d hd hpd
    · rw [ho.player]
      exact hr.sees hsees ho.hub

/-- An agent of the player that is done does what it does. -/
theorem Quiet.tends (h : Quiet w p) {j : Nat} (ht : Tends j m' [] w w')
    (hmode : m'.agent.mode = .ended) : Quiet w' p := by
  refine ⟨fun x m hx hpm => ?_, fun d hd => ?_⟩
  · rw [ht.player] at hpm
    by_cases hj : j = x
    · subst hj
      obtain rfl := Option.some.inj (ht.here.symm.trans hx)
      exact hmode
    · exact h.done x m ((ht.others x hj).symm.trans hx) hpm
  · rw [ht.dismissals, List.append_nil] at hd
    rw [ht.player]
    exact h.settled d hd

theorem Busy.tends (h : Busy w p id i m) {j : Nat} (ht : Tends j m' [] w w')
    (hmode : m'.agent.mode = .ended) (hr : w.service.hub.Regular)
    (hrun : Hub.Staying p w.service.hub w'.service.hub) : Busy w' p id i m := by
  refine ⟨fun x m₁ hne hx hpm => ?_, h.pending.imp_left ?_⟩
  · rw [ht.player] at hpm
    by_cases hj : j = x
    · subst hj
      obtain rfl := Option.some.inj (ht.here.symm.trans hx)
      exact hmode
    · exact h.others x m₁ hne ((ht.others x hj).symm.trans hx) hpm
  · rintro ⟨hsettled, hsees⟩
    refine ⟨fun d hd => ?_, hr.sees hsees hrun⟩
    rw [ht.dismissals, List.append_nil] at hd
    rw [ht.player]
    exact hsettled d hd

/-- The agent that plays goes on; if it dismisses its match, then it has told of a success. -/
theorem Busy.self (h : Busy w p id i m) {ds : List (Caller × MatchId)}
    (ht : Tends i m' ds w w') (hr : w.service.hub.Regular)
    (hrun : Hub.Staying p w.service.hub w'.service.hub)
    (hmore : ∃ more, m'.delivered = m.delivered ++ more)
    (hds : w'.dismissals = w.dismissals ∨ ∃ r, m'.delivered = [r] ∧ r.isComplete = true) :
    Busy w' p id i m' := by
  refine ⟨fun x m₁ hne hx hpm => ?_, ?_⟩
  · rw [ht.player] at hpm
    exact h.others x m₁ hne ((ht.others x hne.symm).symm.trans hx) hpm
  · rcases hds with hds | ⟨r, hd, hcomplete⟩
    · refine h.pending.imp ?_ ?_
      · rintro ⟨hsettled, hsees⟩
        refine ⟨fun d hd => ?_, hr.sees hsees hrun⟩
        rw [hds] at hd
        rw [ht.player]
        exact hsettled d hd
      · rintro ⟨first, rest, hd, hfirst⟩
        obtain ⟨more, hmore⟩ := hmore
        rw [hd, List.cons_append] at hmore
        exact ⟨first, _, hmore, hfirst⟩
    · exact .inr ⟨r, [], hd, hcomplete⟩

/-- The answer that a session waits for is a room. -/
theorem Keeps.answered (hk : Keeps w q given .joining) {due : Instant} {creation : Creation}
    (ha : q.answer = some (due, creation)) :
    ∃ room, creation = { result := .ok room } ∧ Quiet w (w.player q.caller) ∧
      w.service.hub.Sees (w.player q.caller) room.id ∧ room.id ∉ given := by
  cases hk with
  | joining hquiet ha' hsees hout =>
    obtain ⟨-, rfl⟩ := Prod.ext_iff.1 (Option.some.inj (ha.symm.trans ha'))
    exact ⟨_, rfl, hquiet, hsees, hout⟩

/-- A session that plays has its agent at work. -/
theorem Keeps.manned (hk : Keeps w q given (.playing id)) (hi : q.member = some i)
    (hm : w.members[i]? = some m) :
    ∃ t, Manned w q id 0 i m t ∧ Busy w (w.player q.caller) id i m := by
  cases hk with
  | playing hman hbusy =>
    obtain rfl := Option.some.inj (hman.member.symm.trans hi)
    obtain rfl := Option.some.inj (hman.here.symm.trans hm)
    exact ⟨_, hman, hbusy⟩

/-- Whatever keeps the agents of the player in order keeps the session so. -/
theorem Keeps.carry (hk : Keeps w q given stage) (hr : w.service.hub.Regular)
    (hp : w'.player q.caller = w.player q.caller)
    (hquiet : Quiet w (w.player q.caller) → Quiet w' (w.player q.caller) ∧
      Hub.Staying (w.player q.caller) w.service.hub w'.service.hub)
    (hbusy : ∀ {id i m t}, Manned w q id 0 i m t → Busy w (w.player q.caller) id i m →
      ∃ m' t', Manned w' q id 0 i m' t' ∧ Busy w' (w.player q.caller) id i m') :
    Keeps w' q given stage := by
  cases hk with
  | ready hq =>
    refine .ready ?_
    rw [hp]
    exact (hquiet hq).1
  | joining hq ha hsees hout =>
    obtain ⟨hq', hrun⟩ := hquiet hq
    refine .joining ?_ ha ?_ hout <;> rw [hp]
    · exact hq'
    · exact hr.sees hsees hrun
  | starting hq hsees =>
    obtain ⟨hq', hrun⟩ := hquiet hq
    refine .starting ?_ ?_ <;> rw [hp]
    · exact hq'
    · exact hr.sees hsees hrun
  | playing hm hb =>
    obtain ⟨m', t', hm', hb'⟩ := hbusy hm hb
    refine .playing hm' ?_
    rw [hp]
    exact hb'
  | cancelling hq hsees =>
    obtain ⟨hq', hrun⟩ := hquiet hq
    refine .cancelling ?_ ?_ <;> rw [hp]
    · exact hq'
    · exact hr.sees hsees hrun
  | dismissing hq hsees hover =>
    obtain ⟨hq', hrun⟩ := hquiet hq
    refine .dismissing ?_ ?_ (hr.over hsees.created hover hrun.later).2 <;> rw [hp]
    · exact hq'
    · exact hr.sees hsees hrun
  | ended => exact .ended

end Kept

/-! ## The run -/

section Tidy
variable {k : Nat} {w w' : World Lobby} {q q' : Quest} {given : List MatchId}
  {inputs : List SessionInput} {calls : List Call}

/-- Nothing happens to the session, and what is gone stays gone. -/
theorem Tidy.carry (hw : Tidy k given inputs calls w q) (hq : w'.quests[k]? = w.quests[k]?)
    (hp : w'.player q.caller = w.player q.caller)
    (hs : Matchmaker.isSignedIn w.service q.caller = true →
      Matchmaker.isSignedIn w'.service q.caller = true)
    (hrun : Hub.Later w.service.hub w'.service.hub)
    (hk : Keeps w' q given q.session.stage) : Tidy k given inputs calls w' q where
  here := hq.trans hw.here
  regular := hw.regular.later hrun
  signedIn := hs hw.signedIn
  gone id hid := by
    rw [hp]
    exact hw.regular.gone (hw.gone id hid) hrun
  keeps := hk
  joined := hw.joined
  distinct := hw.distinct
  made := hw.made

theorem Tidy.step (hw : Tidy k given inputs calls w q) {i : Nat} {m : Member}
    {words : List UInt64} (hm : w.members[i]? = some m)
    (hpm : w.player m.caller = w.player q.caller) (hb : w.stepRendezvous? i words = some w') :
    Tidy k given inputs calls w' q := by
  obtain ⟨m₁, agent, marks, hm₁, hstep, rfl⟩ := carryOut_of_stepRendezvous hb
  obtain rfl := Option.some.inj (hm.symm.trans hm₁)
  obtain ⟨ht, hub⟩ := tends_carryOut hm agent (marks.map Agent.Mark.effect)
  have hr := hw.regular
  -- an agent that is done makes no step
  have moving : m.agent.mode ≠ .ended := fun hmode => by
    rw [Agent.stepWithin?_of_ended hmode] at hstep
    cases hstep
  refine hw.carry (by rw [ht.quests]) (ht.player _) (fun hs => (ht.isSignedIn _).trans hs)
    hub.later (hw.keeps.carry hr (ht.player _) ?_ ?_)
  · exact fun hquiet => absurd (hquiet.done i m hm hpm) moving
  · intro id y my t hman hbusy
    by_cases hy : i = y
    · subst hy
      obtain rfl := Option.some.inj (hm.symm.trans hman.here)
      have hman' := hman.carryOut hr hstep
      refine ⟨_, _, hman', hbusy.self ht hr (hub.staying _) ⟨_, rfl⟩ ?_⟩
      refine (hman.dismissals hr hb).imp_right ?_
      rintro ⟨-, m', r, hm', hd, hcomplete⟩
      obtain rfl := Option.some.inj (hm'.symm.trans ht.here)
      exact ⟨r, hd, hcomplete⟩
    · exact absurd (hbusy.others i m hy hm hpm) moving

theorem Tidy.task (hw : Tidy k given inputs calls w q) {i : Nat} {m : Member} {j : JobId}
    (hm : w.members[i]? = some m) (hpm : w.player m.caller = w.player q.caller)
    (hb : w.stepTask? i j = some w') : Tidy k given inputs calls w' q := by
  obtain ⟨m₁, hm₁, agent, htoils, ht⟩ := toiled_stepTask hb
  obtain rfl := Option.some.inj (hm.symm.trans hm₁)
  have hr := hw.regular
  have hrun := htoils.staying (w.player q.caller)
  refine hw.carry (by rw [ht.quests]) (ht.player _) (fun hs => (ht.isSignedIn _).trans hs)
    htoils.later (hw.keeps.carry hr (ht.player _) ?_ ?_)
  · intro hquiet
    exact ⟨hquiet.tends ht (htoils.mode_eq.trans (hquiet.done i m hm hpm)), hrun⟩
  · intro id y my t hman hbusy
    by_cases hy : i = y
    · subst hy
      obtain rfl := Option.some.inj (hm.symm.trans hman.here)
      obtain ⟨m', t', hman', hd⟩ := hman.task hr hb
      obtain rfl := Option.some.inj (hman'.here.symm.trans ht.here)
      exact ⟨_, t', hman', hbusy.self ht hr hrun ⟨[], by simp⟩
        (.inl (by rw [ht.dismissals, List.append_nil]))⟩
    · have hmode := htoils.mode_eq.trans (hbusy.others i m hy hm hpm)
      have hkept := hman.aside hr ((ht.others y hy).trans hman.here) (ht.player _) htoils.later
      exact ⟨my, t, hkept, hbusy.tends ht hmode hr hrun⟩

theorem Tidy.dismissal (hw : Tidy k given inputs calls w q) {n : Nat} {d : Caller × MatchId}
    (hd : w.dismissals[n]? = some d) (hpd : w.player d.1 = w.player q.caller)
    (hb : w.stepDismissal? n = some w') : Tidy k given inputs calls w' q := by
  have hmem := List.mem_of_getElem? hd
  obtain ⟨acts, hmembers, hquests⟩ := acts_of_stepDismissal hb
  have hp := player_congr acts.handles_eq
  refine hw.carry (by rw [hquests]) (hp _) (fun hs => (isSignedIn_of_acts acts _).trans hs)
    (later_of_acts acts) (hw.keeps.carry hw.regular (hp _) ?_ ?_)
  · exact fun hquiet => absurd hpd (hquiet.settled _ hmem)
  · intro id i m t hman hbusy
    have hkept := hman.aside hw.regular (hmembers ▸ hman.here) (hp _) (later_of_acts acts)
    refine ⟨m, t, hkept, fun j m' hne hj hpm => ?_, hbusy.pending.imp_left ?_⟩
    · rw [hmembers] at hj
      rw [hp] at hpm
      exact hbusy.others j m' hne hj hpm
    · exact fun h => absurd hpd (h.1 _ hmem)

theorem Tidy.other (hw : Tidy k given inputs calls w q) (ho : Apart k w w') :
    Tidy k given inputs calls w' q := by
  cases ho with
  | step hq hm hpm hb =>
    obtain rfl := Option.some.inj (hq.symm.trans hw.here)
    exact hw.step hm hpm hb
  | task hq hm hpm hb =>
    obtain rfl := Option.some.inj (hq.symm.trans hw.here)
    exact hw.task hm hpm hb
  | dismissal hq hd hpd hb =>
    obtain rfl := Option.some.inj (hq.symm.trans hw.here)
    exact hw.dismissal hd hpd hb
  | aside hq halone =>
    have ho := halone q hw.here
    refine hw.carry hq ho.player ho.signedIn ho.hub.later
      (hw.keeps.carry hw.regular ho.player ?_ ?_)
    · intro hquiet
      refine ⟨?_, ho.hub⟩
      rw [← ho.player]
      exact hquiet.aside ho
    · intro id i m t hman hbusy
      have hhere := ((ho.members i m).2 ⟨hman.here, by rw [hman.caller]⟩).1
      refine ⟨m, t, hman.aside hw.regular hhere ho.player ho.hub.later, ?_⟩
      rw [← ho.player]
      exact hbusy.aside ho hw.regular

/-! ## Steps of the session -/

/-- A session that was at `stage` and has given up the rooms `given` is told `input`, makes the
calls `calls`, and leaves the rooms `more` behind. -/
structure Leaves (w' : World Lobby) (q' : Quest) (given more : List MatchId) (stage : SessionStage)
    (input : SessionInput) (calls : List Call) : Prop where
  gone : ∀ id ∈ more, w'.service.hub.Gone (w'.player q'.caller) id
  keeps : Keeps w' q' (given ++ more) q'.session.stage
  rooms : stage.room?.toList ++ input.joined?.toList = more ++ q'.session.stage.room?.toList
  called : stage.called ++ calls = more.flatMap Call.ofAttempt ++ q'.session.stage.called
  new : ∀ id, input.joined? = some id → id ∉ given ++ stage.room?.toList

/-- A step in which the room stays what it is. -/
theorem leaves_nothing {stage stage' : SessionStage} {input : SessionInput}
    (hst : q'.session.stage = stage') (hk : Keeps w' q' given stage') (hj : input.joined? = none)
    (hroom : stage'.room? = stage.room?) (hcalled : stage.called ++ calls = stage'.called) :
    Leaves w' q' given [] stage input calls := by
  subst hst
  refine ⟨List.forall_mem_nil _, by rwa [List.append_nil], ?_, ?_, ?_⟩
  · simp [hj, hroom]
  · simpa using hcalled
  · intro id hid
    simp [hj] at hid

/-- The service has a new room. -/
theorem keeps_of_ask (hr : w.service.hub.Regular) (hq : w.quests[k]? = some q)
    (hs : Matchmaker.isSignedIn w.service q.caller = true)
    (hgone : ∀ id ∈ given, w.service.hub.Gone (w.player q.caller) id)
    (hquiet : Quiet w (w.player q.caller))
    (hq' : (w.questAsk k q.caller).quests[k]? = some q') :
    Keeps (w.questAsk k q.caller) q' given .joining := by
  obtain ⟨m, hm, hsees, hnew⟩ := hr.exists_create (w.player q.caller)
  rw [questAsk_of_signedIn hs] at hq' ⊢
  obtain rfl := Option.some.inj (hq'.symm.trans (getElem?_modifyQuest (by exact hq) _))
  have ha : some (w.now,
      ({ result := (w.service.hub.create (w.player q.caller) .autoMatching).2 } : Creation)) =
        some (w.now, { result := .ok m }) := by
    rw [hm]
  exact .joining (hquiet.congr rfl rfl fun _ => rfl) ha hsees fun hid =>
    hnew _ ((hgone _ hid).enrols hr.sound) rfl

/-- The agent is there. -/
theorem keeps_of_play (hr : w.service.hub.Regular) (hq : w.quests[k]? = some q) {room : Match}
    (hst : q.session.stage = .starting room)
    (hs : Matchmaker.isSignedIn w.service q.caller = true)
    (hquiet : Quiet w (w.player q.caller))
    (hsees : w.service.hub.Sees (w.player q.caller) room.id)
    (hq' : (w.questStart k q room).quests[k]? = some q') (hcaller : q'.caller = q.caller) :
    Keeps (w.questStart k q room) q' given (.playing room.id) := by
  obtain ⟨m, t, hman⟩ := manned_questStart hr hq hst hs hsees.enrols hq'
  obtain ⟨agent, -, heq⟩ := questStart_of_signedIn (k := k) hs room
  refine .playing hman ⟨fun j m' hne hj hpm => ?_, .inl ⟨?_, ?_⟩⟩
  · rw [heq] at hj hpm
    rw [hcaller] at hpm
    refine hquiet.done j m' ?_ hpm
    have hlt : j < w.members.length := by
      have hlt' : j < w.members.length + 1 := by
        simpa [enlist, subscribe] using (List.getElem?_eq_some_iff.1 hj).1
      omega
    exact (List.getElem?_append_left hlt).symm.trans hj
  · rw [heq, hcaller]
    exact hquiet.settled
  · rw [heq, hcaller]
    exact hr.sees hsees (.one (a := .subscribe (w.player q.caller)) trivial (by simp))

/-- A session that gives its room up lets go of the agent. -/
theorem questSettle_of_cancelling {i : Nat} {input : SessionInput} (hq : w.quests[k]? = some q)
    {id : MatchId} {why : Failure} (hst : (q.session.advance input).stage = .cancelling id why) :
    w.questSettle k i input = (w.tellSession k input).modifyAgent i .abandonMatch := by
  have hstage : (w.tellSession k input).sessionStage? k = some (.cancelling id why) := by
    rw [sessionStage?, tellSession, getElem?_modifyQuest hq, Option.map_some, hst]
  simp [questSettle, hstage]

/-- The agent has told of a failure: it is done, and has dismissed nothing. -/
theorem keeps_of_giveUp {id : MatchId} {why : Failure} {i : Nat} {m : Member} {r : Report}
    {input : SessionInput} (hk : Keeps w q given (.playing id)) (hq : w.quests[k]? = some q)
    (hst : (q.session.advance input).stage = .cancelling id why) (hi : q.member = some i)
    (hm : w.members[i]? = some m) (hd : m.delivered[m.taken]? = some r)
    (hfailed : r.isComplete = false) (hcaller : q'.caller = q.caller) :
    Keeps ((w.modifyMember i fun m => { m with taken := m.taken + 1 }).questSettle k i input) q'
      given (.cancelling id why) := by
  rw [questSettle_of_cancelling (by exact hq) hst]
  obtain ⟨t, hman, hbusy⟩ := hk.manned hi hm
  rw [hman.taken, ← List.head?_eq_getElem?, List.head?_eq_some_iff] at hd
  obtain ⟨rest, hd⟩ := hd
  have hmode : m.agent.mode = .ended :=
    hman.tended.ended_of_failure (hman.told.symm.trans hd) hfailed
  obtain ⟨hsettled, hsees⟩ : (∀ d ∈ w.dismissals, w.player d.1 ≠ w.player q.caller) ∧
      w.service.hub.Sees (w.player q.caller) id := by
    refine hbusy.pending.resolve_right ?_
    rintro ⟨first, rest', hd', hfirst⟩
    obtain ⟨rfl, -⟩ := List.cons.inj (hd.symm.trans hd')
    exact Bool.false_ne_true (hfailed.symm.trans hfirst)
  refine .cancelling ⟨fun j my hj hpm => ?_, ?_⟩ ?_
  · by_cases hji : i = j
    · subst hji
      have hmy : { m with taken := m.taken + 1, agent := m.agent.abandonMatch } = my := by
        simpa [modifyAgent, modifyMember, tellSession, modifyQuest, hman.here] using hj
      rw [← hmy]
      exact (Agent.sameWork_call m.agent .giveUp).mode_eq.trans hmode
    · refine hbusy.others j my (Ne.symm hji) ?_ (hcaller ▸ hpm)
      simpa [modifyAgent, modifyMember, tellSession, modifyQuest, hji] using hj
  · rw [hcaller]
    exact hsettled
  · rw [hcaller]
    exact hsees

/-- The room is cancelled, and over. -/
theorem keeps_of_cancel {id : MatchId} {why : Failure} (hr : w.service.hub.Regular)
    (hs : Matchmaker.isSignedIn w.service q.caller = true)
    (hk : Keeps w q given (.cancelling id why)) (hcaller : q'.caller = q.caller)
    (hp : ∀ c, ((w.callCancel q.caller id).tellSession k .cancelled).player c = w.player c) :
    Keeps ((w.callCancel q.caller id).tellSession k .cancelled) q' given
      (.dismissing id why) := by
  have hub : ((w.callCancel q.caller id).tellSession k .cancelled).service.hub =
      (w.service.hub.cancel (w.player q.caller) id).1 := hub_callCancel hs id
  cases hk with
  | cancelling hquiet hsees =>
    refine .dismissing ?_ ?_ ?_
    · rw [hcaller, hp]
      exact hquiet.congr rfl rfl hp
    · rw [hub, hcaller, hp]
      exact hr.sees hsees (.one (a := .cancel (w.player q.caller) id) trivial (by simp))
    · rw [hub]
      exact Hub.over_of_cancel hr.sound hsees

/-- The room is dismissed, and gone. -/
theorem leaves_of_dismiss {id : MatchId} {why : Failure} (hr : w.service.hub.Regular)
    (hs : Matchmaker.isSignedIn w.service q.caller = true)
    (hk : Keeps w q given (.dismissing id why)) (hst : q'.session.stage = .ready)
    (hcaller : q'.caller = q.caller)
    (hp : ∀ c, ((w.callDismiss q.caller id).tellSession k .dismissed).player c = w.player c) :
    Leaves ((w.callDismiss q.caller id).tellSession k .dismissed) q' given [id]
      (.dismissing id why) .dismissed [.dismissMatch id] := by
  have hub : ((w.callDismiss q.caller id).tellSession k .dismissed).service.hub =
      (w.service.hub.dismiss (w.player q.caller) id).1 := hub_callDismiss hs id
  cases hk with
  | dismissing hquiet hsees hover =>
    refine ⟨?_, ?_, ?_, ?_, nofun⟩
    · intro id' hid
      obtain rfl := List.mem_singleton.1 hid
      rw [hub, hcaller, hp]
      exact Hub.gone_of_dismiss hr.sound hsees hover
    · rw [hst]
      refine .ready ?_
      rw [hcaller, hp]
      exact hquiet.congr rfl rfl hp
    · rw [hst]
      rfl
    · rw [hst]
      rfl

/-- The service has told of its room. -/
theorem leaves_of_join {input : SessionInput} {room : Match}
    (hquiet : Quiet w (w.player q.caller))
    (hsees : w.service.hub.Sees (w.player q.caller) room.id) (hout : room.id ∉ given)
    (hst : q'.session.stage = .starting room) (hcaller : q'.caller = q.caller) :
    Leaves (w.tellSession k input) q' given [] .joining (.answered (.ok room)) [] := by
  refine ⟨List.forall_mem_nil _, ?_, ?_, ?_, ?_⟩
  · rw [hst, List.append_nil]
    refine .starting ?_ ?_ <;> rw [hcaller]
    · exact hquiet.congr rfl rfl fun _ => rfl
    · exact hsees
  · rw [hst]
    rfl
  · rw [hst]
    rfl
  · rintro id ⟨⟩
    simpa [SessionStage.room?] using hout

/-- Whatever a session is told that it waits for, it is tidy. -/
theorem Tidy.leaves (hw : Tidy k given inputs calls w q) {input : SessionInput} {new : List Call}
    (hp : Advances k w q input new w') (hq' : w'.quests[k]? = some q')
    (hs : q'.session = q.session.advance input) (hcaller : q'.caller = q.caller) :
    ∃ more, Leaves w' q' given more q.session.stage input new := by
  have hl := Session.leads_advance hp.awaits
  have hplayer := hp.player
  have hk := hw.keeps
  have hr := hw.regular
  have hsigned := hw.signedIn
  generalize hadv : q.session.advance input = s' at hl hs
  have hstage : q'.session.stage = s'.stage := by rw [hs]
  -- the player is signed in, so the session is told so wherever it asks
  cases hp with
  | exhausted hst hex =>
    rw [hsigned] at hl
    rw [hst]
    cases hl with
    | exhausted => exact ⟨[], leaves_nothing hstage .ended rfl rfl rfl⟩
    | ask _ hex' => exact absurd (hex'.symm.trans hex) Bool.false_ne_true
  | signedOut _ _ hout => exact absurd (hout.symm.trans hsigned) Bool.false_ne_true
  | ask hst hex =>
    rw [hst] at hk ⊢
    cases hl with
    | exhausted _ _ hex' => exact absurd (hex.symm.trans hex') Bool.false_ne_true
    | ask =>
      cases hk with
      | ready hquiet =>
        exact ⟨[], leaves_nothing hstage (keeps_of_ask hr hw.here hsigned hw.gone hquiet hq')
          rfl rfl rfl⟩
  | join hst ha =>
    rw [hst] at hk ⊢
    obtain ⟨room, rfl, hquiet, hsees, hout⟩ := hk.answered ha
    cases hl with
    | join => exact ⟨[], leaves_of_join hquiet hsees hout hstage hcaller⟩
  | start hst =>
    rw [hsigned] at hl
    cases hl with
    | play hst' =>
      obtain rfl := SessionStage.starting.inj (hst.symm.trans hst')
      rw [hst] at hk ⊢
      cases hk with
      | starting hquiet hsees =>
        exact ⟨[], leaves_nothing hstage
          (keeps_of_play hr hw.here hst hsigned hquiet hsees hq' hcaller) rfl rfl rfl⟩
  | hear hst hi hm hd =>
    cases hl with
    | meet _ hst' =>
      rw [hst']
      exact ⟨[], leaves_nothing hstage .ended rfl rfl rfl⟩
    | giveUp hst' hresult =>
      obtain rfl := SessionStage.playing.inj (hst.symm.trans hst')
      rw [hst] at hk ⊢
      refine ⟨[], leaves_nothing hstage ?_ rfl rfl rfl⟩
      exact keeps_of_giveUp hk hw.here (by rw [hadv]) hi hm hd
        (Report.isComplete_eq_false_of_toResult hresult) hcaller
    | lose _ _ hwhy =>
      rw [hsigned, Failure.allowsRetry_of_signedIn] at hwhy
      cases hwhy
  | silence hst hi hm hd hf =>
    obtain ⟨t, hman, -⟩ := (hst ▸ hk).manned hi hm
    refine absurd ?_ (hman.tended.told_of_finished (by simpa [Agent.isFinished] using hf))
    rw [hman.taken, hman.told] at hd
    simpa using hd
  | cancel hst =>
    cases hl with
    | cancelled hst' =>
      obtain ⟨rfl, rfl⟩ := SessionStage.cancelling.inj (hst.symm.trans hst')
      rw [hst] at hk ⊢
      exact ⟨[], leaves_nothing hstage (keeps_of_cancel hr hsigned hk hcaller hplayer) rfl rfl rfl⟩
  | dismiss hst =>
    rw [hst] at hk ⊢
    cases hl with
    | dismissed => exact ⟨_, leaves_of_dismiss hr hsigned hk hstage hcaller hplayer⟩

theorem Tidy.own (hw : Tidy k given inputs calls w q) (hb : w.stepSession? k = some w') :
    ∃ given' q',
      Tidy k given' (inputs ++ (w.comesUpon k).toList) (calls ++ w.callsSince w') w' q' := by
  obtain ⟨q₁, input, new, hq₁, hp⟩ := advances_of_stepSession hb
  obtain rfl := Option.some.inj (hw.here.symm.trans hq₁)
  obtain ⟨q', hq', hs, hcaller, -⟩ := hp.quest hw.here
  obtain ⟨more, hl⟩ := hw.leaves hp hq' hs hcaller
  have hcomes : w.comesUpon k = some input := by
    refine hp.comesUpon hw.here fun id hst i m hi hm => ?_
    obtain ⟨t, hman, -⟩ := (hst ▸ hw.keeps).manned hi hm
    exact hman.taken
  have hsigned : Matchmaker.isSignedIn w'.service q.caller = true := by
    rw [hp.isSignedIn_eq ?_ q.caller]
    · exact hw.signedIn
    · intro due creation hst ha
      obtain ⟨room, rfl, -⟩ := (hst ▸ hw.keeps).answered ha
      rfl
  have hrooms : given ++ more ++ q'.session.stage.room?.toList =
      given ++ q.session.stage.room?.toList ++ input.joined?.toList := by
    rw [List.append_assoc, ← hl.rooms, List.append_assoc]
  refine ⟨given ++ more, q', hq', hw.regular.later hp.service.1, hcaller ▸ hsigned, ?_, hl.keeps,
    ?_, ?_, ?_⟩
  · refine List.forall_mem_append.2 ⟨fun id hid => ?_, hl.gone⟩
    rw [hcaller, hp.player]
    exact hw.regular.gone (hw.gone id hid) hp.service.1
  · rw [hrooms, List.filterMap_append, hw.joined, hcomes]
    cases hj : input.joined? <;> simp [hj]
  · rw [hrooms]
    cases hj : input.joined? with
    | none => simpa using hw.distinct
    | some id => exact List.nodup_append.2 ⟨hw.distinct, by simp, by
        rintro a ha b hb rfl
        obtain rfl := List.mem_singleton.1 hb
        exact hl.new a hj ha⟩
  · rw [hp.callsSince, hw.made, List.append_assoc, hl.called, List.flatMap_append,
      List.append_assoc]

theorem tidy_of_pursues {w₀ : World Lobby} {q₀ : Quest} (hr : w₀.service.hub.Regular)
    (hq₀ : w₀.quests[k]? = some q₀) (hst : q₀.session.stage = .ready)
    (hs : Matchmaker.isSignedIn w₀.service q₀.caller = true)
    (hquiet : Quiet w₀ (w₀.player q₀.caller)) (hrun : Pursues (Apart k) k w₀ inputs calls w) :
    ∃ given q, Tidy k given inputs calls w q := by
  induction hrun with
  | nil =>
    refine ⟨[], q₀, hq₀, hr, hs, List.forall_mem_nil _, ?_, ?_, ?_, ?_⟩ <;> rw [hst]
    · exact .ready hquiet
    · rfl
    · exact List.nodup_nil
    · rfl
  | own _ hb ih =>
    obtain ⟨given, q, hw⟩ := ih
    exact hw.own hb
  | other _ ho ih =>
    obtain ⟨given, q, hw⟩ := ih
    exact ⟨given, q, hw.other ho⟩

/-- A session is run over a lobby from its beginning, for a player who stays signed in and
does nothing else on the hub, whatever others do.  The rooms that it has joined are all
different.  They are those that it has given up and the one that it is in, if any; when it
ends, this is the room of its success.  For each room that was given up the session has
called for a room, cancelled it and dismissed it, in this order, before anything else; the
room of a success it has not cancelled.  And a room that was given up is over, waits for
nobody, and is hidden from the player. -/
theorem no_room_left_behind {w₀ : World Lobby} {q₀ : Quest} (hr : w₀.service.hub.Regular)
    (hq₀ : w₀.quests[k]? = some q₀) (hst : q₀.session.stage = .ready)
    (hs : Matchmaker.isSignedIn w₀.service q₀.caller = true)
    (hquiet : Quiet w₀ (w₀.player q₀.caller)) (hrun : Pursues (Apart k) k w₀ inputs calls w) :
    ∃ q given, w.quests[k]? = some q ∧
      inputs.filterMap SessionInput.joined? = given ++ q.session.stage.room?.toList ∧
      (inputs.filterMap SessionInput.joined?).Nodup ∧
      calls = given.flatMap Call.ofAttempt ++ q.session.stage.called ∧
      (∀ meeting, q.session.result? = some (.ok meeting) →
        .cancelMatch meeting.matchId ∉ calls) ∧
      ∀ id ∈ given, w.service.hub.Over id ∧ id ∉ w.service.hub.openIds ∧
        w.service.hub.visible? (w.player q.caller) id = none := by
  obtain ⟨given, q, hw⟩ := tidy_of_pursues hr hq₀ hst hs hquiet hrun
  have hdistinct := hw.distinct
  refine ⟨q, given, hw.here, hw.joined, by rwa [hw.joined], hw.made, ?_, ?_⟩
  · intro meeting hresult hmem
    rw [hw.made, Session.result?_eq_some_iff.1 hresult] at hmem
    rw [Session.result?_eq_some_iff.1 hresult] at hdistinct
    rcases List.mem_append.1 hmem with hmem | hmem
    · obtain ⟨id, hid, hcall⟩ := List.mem_flatMap.1 hmem
      obtain rfl : meeting.matchId = id := by simpa [Call.ofAttempt] using hcall
      exact (List.nodup_append.1 hdistinct).2.2 _ hid _ (List.mem_singleton_self _) rfl
    · simp [SessionStage.called] at hmem
  · intro id hid
    have hgone := hw.gone id hid
    exact ⟨hgone.ended, hgone.ended.not_mem_openIds hw.regular.sound, hgone.visible?⟩

end Tidy

/-! ## A host without an invite gives up -/

/-- What an agent of somebody else does leaves the player alone. -/
theorem leavesAlone_of_tends {i : Nat} {m m' : Member} {ds : List (Caller × MatchId)} {c : Caller}
    {w w' : World Lobby} (ht : Tends i m' ds w w') (hm : w.members[i]? = some m)
    (hc : m'.caller = m.caller) (hds : ∀ d ∈ ds, d.1 = m.caller)
    (hne : w.player m.caller ≠ w.player c)
    (hrun : Hub.Staying (w.player c) w.service.hub w'.service.hub) : LeavesAlone c w w' := by
  refine ⟨ht.player c, fun hs => (ht.isSignedIn c).trans hs, fun j mj => ?_, fun d hd hpd => ?_,
    hrun⟩
  · rw [ht.player, ht.player]
    by_cases hj : i = j
    · subst hj
      rw [ht.here, hm]
      constructor
      · rintro ⟨⟨⟩, hp⟩
        exact absurd (hc ▸ hp) hne
      · rintro ⟨⟨⟩, hp⟩
        exact absurd hp hne
    · rw [ht.others j hj]
  · rw [ht.player, ht.player] at hpd
    rw [ht.dismissals] at hd
    rcases List.mem_append.1 hd with hd | hd
    · exact ⟨hd, hpd⟩
    · exact absurd (hds d hd ▸ hpd) hne

/-- Somebody else dismisses a match. -/
theorem staying_dismiss (l : Lobby) {c : Caller} (id : MatchId) {p : PlayerId}
    (hne : l.player c ≠ p) : Hub.Staying p l.hub (l.dismiss c id).1.hub := by
  rcases hub_dismiss l c id with hub | hub <;> rw [hub]
  · exact .refl
  · refine .one trivial ?_
    rintro id' ⟨⟩
    exact hne rfl

/-- All parts of a world but the other sessions leave the player to the session. -/
theorem apart_of_step {k : Nat} {w w' : World Lobby} {words : List UInt64} {part : Part}
    (hpart : ∀ k', part ≠ .session k') (hb : w.step? words part = some w') : Apart k w w' := by
  cases part with
  | rendezvous i =>
    obtain ⟨m, agent, marks, hm, -, rfl⟩ := carryOut_of_stepRendezvous hb
    by_cases hown : ∃ q, w.quests[k]? = some q ∧ w.player m.caller = w.player q.caller
    · obtain ⟨q, hq, hp⟩ := hown
      exact .step hq hm hp hb
    · obtain ⟨ht, hub⟩ := tends_carryOut hm agent (marks.map Agent.Mark.effect)
      refine .aside (by rw [ht.quests]) fun q hq =>
        leavesAlone_of_tends ht hm rfl ?_ (fun hp => hown ⟨q, hq, hp⟩) (hub.staying _)
      intro d hd
      obtain ⟨e, -, he⟩ := List.mem_filterMap.1 hd
      cases e with
      | dismissed =>
        obtain ⟨r, -, rfl⟩ := Option.map_eq_some_iff.1 he
        rfl
      | _ => cases he
  | task i j =>
    obtain ⟨m, hm, agent, htoils, ht⟩ := toiled_stepTask hb
    by_cases hown : ∃ q, w.quests[k]? = some q ∧ w.player m.caller = w.player q.caller
    · obtain ⟨q, hq, hp⟩ := hown
      exact .task hq hm hp hb
    · exact .aside (by rw [ht.quests]) fun q hq =>
        leavesAlone_of_tends ht hm rfl (List.forall_mem_nil _) (fun hp => hown ⟨q, hq, hp⟩)
          (htoils.staying _)
  | dismissal n =>
    obtain ⟨⟨c, id⟩, hd, hw'⟩ := Option.map_eq_some_iff.1 hb
    by_cases hown : ∃ q, w.quests[k]? = some q ∧ w.player c = w.player q.caller
    · obtain ⟨q, hq, hp⟩ := hown
      exact .dismissal hq hd hp hb
    · obtain ⟨acts, hmembers, hquests⟩ := acts_of_stepDismissal hb
      have hp := player_congr acts.handles_eq
      subst hw'
      refine .aside rfl fun q hq => ⟨hp _, fun hs => (isSignedIn_of_acts acts _).trans hs,
        fun j m => ?_, fun d hd hpd => ?_, ?_⟩
      · rw [hmembers, hp, hp]
      · rw [hp, hp] at hpd
        exact ⟨List.mem_of_mem_eraseIdx hd, hpd⟩
      · exact staying_dismiss w.service id fun hp => hown ⟨q, hq, hp⟩
  | session k' => exact absurd rfl (hpart k')

theorem no_room_left_behind_by_a_host_without_invite :
    let parts := vainAttempt 0 ++ vainAttempt 1 ++ [.session 0]
    let w := vainWorld.moves parts
    let inputs := (followed 0 vainWorld parts).1
    let calls := (followed 0 vainWorld parts).2
    Pursues (Apart 0) 0 vainWorld inputs calls w ∧
      inputs.filterMap SessionInput.joined? = [⟨"#1"⟩, ⟨"#2"⟩] ∧
      calls = Call.ofAttempt ⟨"#1"⟩ ++ Call.ofAttempt ⟨"#2"⟩ ∧
      ∀ id ∈ ([⟨"#1"⟩, ⟨"#2"⟩] : List MatchId), w.service.hub.Over id ∧
        id ∉ w.service.hub.openIds ∧ w.service.hub.visible? ⟨"ann"⟩ id = none := by
  intro parts w inputs calls
  have hrun : Pursues (Apart 0) 0 vainWorld inputs calls w :=
    pursues_moves parts (by simp [parts, vainAttempt])
      (fun _ _ hpart _ _ => apart_of_step hpart) .nil
  have hquiet : Quiet vainWorld ⟨"ann"⟩ := ⟨by simp [vainWorld], by simp [vainWorld]⟩
  obtain ⟨q, given, hq, hjoined, -, hcalls, -, hgone⟩ :=
    no_room_left_behind Hub.regular_empty rfl rfl rfl hquiet hrun
  have hin : inputs.filterMap SessionInput.joined? = [⟨"#1"⟩, ⟨"#2"⟩] := by decide +kernel
  have hstage : (w.quests[0]?.map fun q => (q.session.stage.room?, q.session.stage.called)) =
      some (none, []) := by decide +kernel
  have hplayer : (w.quests[0]?.map fun q => w.player q.caller) = some ⟨"ann"⟩ := by
    decide +kernel
  rw [hq, Option.map_some] at hstage hplayer
  obtain ⟨hroom, hcalled⟩ := Prod.mk.inj (Option.some.inj hstage)
  rw [hin, hroom] at hjoined
  obtain rfl : [⟨"#1"⟩, ⟨"#2"⟩] = given := by simpa using hjoined
  rw [hcalled] at hcalls
  rw [Option.some.inj hplayer] at hgone
  exact ⟨hrun, hin, by simpa using hcalls, hgone⟩

end World

end TurnRendezvous
