/-
# `World.Course` — one agent, and whatever else goes on

The agent of one member is followed from its start on what its player saw just
then.  It makes its steps, its tasks go on and its owner calls it as they like
(`Passes.start` to `Passes.task`); in between the rest of the world may change in
any way, as long as the hub only changes by calls, and the player takes no turn on
the match elsewhere (`Passes.aside`).

* `seated_of_passes`: whatever happens, the agent stays a tenant of the hub;
* `played_newer_than_accepted`: so after a turn was accepted it plays on nothing
  older, but for a snapshot that was told when somebody took the open slot;
* `stale_snapshot_played`: and that can happen.
-/
import TurnRendezvous.Proofs.Agent.Tenant
import TurnRendezvous.Proofs.World.Turns

namespace TurnRendezvous

/-- What the answer to a turn means. -/
def TurnEvent.ofAnswer : Except Failure Match → List TurnEvent
  | .ok room => [.accepted room.version]
  | .error _ => []

namespace World

/-! ## What happens -/

/-- What it means if a task of the member at `i` goes on, should it hand a turn over. -/
def landing (w : World Lobby) (i : Nat) (j : JobId) : List TurnEvent :=
  match w.members[i]? with
  | none => []
  | some m =>
    match m.agent.rendezvous, m.agent.task? j with
    | some r, some ⟨_, .submit data next _⟩ =>
      TurnEvent.ofAnswer (w.service.takeTurn m.caller r.matchId data next).2
    | _, _ => []

/-- What can happen around the member at `i`, which is to play the match `id`. -/
inductive Passes (i : Nat) (id : MatchId) (w : World Lobby) : List TurnEvent → World Lobby → Prop
  /-- The agent is started on what its player sees now. -/
  | start {m : Member} {room : Match} :
      w.members[i]? = some m → w.service.hub.snapshot? id (w.player m.caller) = some room →
      Passes i id w [] (w.start i room).2
  | owner (c : OwnerCall) : Passes i id w [] (w.modifyAgent i (·.call c))
  /-- The rendezvous makes a step, and the owner makes calls in the callbacks. -/
  | step {m : Member} {words : List UInt64} {within : List OwnerCall} {agent : Agent}
      {marks : List Agent.Mark} :
      w.members[i]? = some m →
      m.agent.stepWithin? (w.surroundings m.caller words) within = some (agent, marks) →
      Passes i id w (m.agent.toPlay?.map TurnEvent.played).toList
        (w.carryOut i m agent (marks.map Agent.Mark.effect))
  | task {j : JobId} {w' : World Lobby} :
      w.stepTask? i j = some w' →
      Passes i id w (w.landing i j) w'
  /-- Anything else, with any calls of the hub but turns of the player on the match. -/
  | aside {m m' : Member} {w' : World Lobby} :
      w.members[i]? = some m → w'.members[i]? = some m' → m'.agent = m.agent →
      m'.caller = m.caller → w'.player m.caller = w.player m.caller →
      Hub.Since (w.player m.caller) id w.service.hub w'.service.hub → Passes i id w [] w'

/-- What a row of such things leads to, and what happens to the agent's turns. -/
inductive Course (i : Nat) (id : MatchId) (w : World Lobby) : List TurnEvent → World Lobby → Prop
  | nil : Course i id w [] w
  | snoc {e new : List TurnEvent} {w₁ w₂ : World Lobby} :
      Course i id w e w₁ → Passes i id w₁ new w₂ → Course i id w (e ++ new) w₂

/-! ## What is kept -/

/-- The member `m` at `i` has an agent that plays on the hub for `p`. -/
structure Seated (p : PlayerId) (id : MatchId) (i : Nat) (e : List TurnEvent) (w : World Lobby)
    (m : Member) : Prop where
  here : w.members[i]? = some m
  player : w.player m.caller = p
  sound : w.service.hub.Sound
  standing : m.agent.Standing
  loaded : ∃ bytes, m.agent.Loaded bytes
  tenant : m.agent.Tenant p id w.service.hub e

section Seated
variable {p : PlayerId} {id : MatchId} {i : Nat} {e : List TurnEvent} {w w' : World Lobby}
  {m : Member}

/-- The agent makes a move, and what it means for its turns is known. -/
theorem Seated.move (hs : Seated p id i e w m) {m' : Member} {e' : List TurnEvent}
    {mv : Agent.Move} {marks : List Agent.Mark} (hm : w'.members[i]? = some m')
    (hc : m'.caller = m.caller) (hp : w'.player m.caller = w.player m.caller)
    (hsound : w'.service.hub.Sound) (hmv : m.agent.Moves mv marks m'.agent)
    (ht : m'.agent.Tenant p id w'.service.hub e') : Seated p id i e' w' m' := by
  obtain ⟨bytes, hl⟩ := hs.loaded
  exact ⟨hm, by rw [hc, hp, hs.player], hsound, Agent.standing_of_moves hs.standing hmv,
    ⟨_, Agent.loaded_of_moves hs.standing hl hmv⟩, ht⟩

/-- Anything else happens. -/
theorem Seated.aside (hs : Seated p id i e w m) {m' : Member} (hm : w'.members[i]? = some m')
    (ha : m'.agent = m.agent) (hc : m'.caller = m.caller)
    (hp : w'.player m.caller = w.player m.caller)
    (hrun : Hub.Since p id w.service.hub w'.service.hub) : Seated p id i e w' m' := by
  obtain ⟨here, player, sound, standing, loaded, tenant⟩ := hs
  refine ⟨hm, by rw [hc, hp, player], Hub.sound_of_since sound hrun, ?_, ?_, ?_⟩
  · rw [ha]
    exact standing
  · rw [ha]
    exact loaded
  · rw [ha]
    exact Agent.tenant_since sound hrun tenant

/-- A change that leaves the member and the service alone. -/
theorem Seated.same (hs : Seated p id i e w m) (hm : w'.members[i]? = some m)
    (hservice : w'.service = w.service) : Seated p id i e w' m := by
  refine hs.aside hm rfl rfl ?_ ?_
  · simp only [World.player, hservice]
  · rw [hservice]
    exact .refl

theorem getElem?_modifyAgent (hs : Seated p id i e w m) (f : Agent → Agent) :
    (w.modifyAgent i f).members[i]? = some { m with agent := f m.agent } :=
  getElem?_modifyMember hs.here _

theorem seated_subscribe (hs : Seated p id i e w m) (c : Caller) :
    Seated p id i e (w.subscribe c) m :=
  hs.aside hs.here rfl rfl rfl (.call (a := .subscribe (w.service.player c)) .refl trivial rfl)

/-- A turn that is refused leaves the service as it is; any other one is the hub's. -/
theorem answer_of_callTurn (w : World Lobby) (c : Caller) (id : MatchId) (data : Bytes)
    (next : Option PlayerId) :
    (∃ f, (w.service.takeTurn c id data next).2 = .error f ∧
        w.callTurn c id data next = (w.note c (.turnFailed id), .error f)) ∨
      ∃ room, (w.service.takeTurn c id data next).2 = .ok room ∧
        (w.service.hub.takeTurn (w.player c) id data next).2 = .ok room ∧
        w.callTurn c id data next =
          (World.note
            { w with
              service := { w.service with
                hub := (w.service.hub.takeTurn (w.player c) id data next).1 } }
            c (.turnLanded id), .ok ()) := by
  simp only [callTurn, Matchmaker.takeTurn, Lobby.takeTurn, Lobby.act, World.player]
  split
  · rcases Hub.takeTurn_cases w.service.hub (w.service.player c) id data next with
      ⟨f, heq⟩ | ⟨r, -, -, heq⟩
    · rw [heq]
      exact .inl ⟨f, rfl, rfl⟩
    · rw [heq]
      exact .inr ⟨_, rfl, rfl, rfl⟩
  · exact .inl ⟨_, rfl, rfl⟩

/-! ## Starts and steps -/

theorem seated_start (hs : Seated p id i e w m) {room : Match}
    (hroom : w.service.hub.snapshot? id (w.player m.caller) = some room) :
    ∃ m', Seated p id i e (w.start i room).2 m' := by
  have hplayer := hs.player
  subst hplayer
  simp only [start, hs.here]
  split
  · exact ⟨m, hs⟩
  next agent hb =>
    have ht := Agent.tenant_start hs.sound hs.standing hs.tenant hroom hb
    have begun : Seated (w.player m.caller) id i e (w.modifyAgent i fun _ => agent)
        { m with agent } :=
      hs.move (getElem?_modifyAgent hs _) rfl rfl hs.sound (.start hb) ht
    exact ⟨_, seated_subscribe begun m.caller⟩

theorem seated_effect (hs : Seated p id i e w m) (m₀ : Member) (eff : Effect) :
    ∃ m', Seated p id i e (w.effect i m₀ eff) m' := by
  cases eff with
  | subscribed => exact ⟨m, seated_subscribe hs m₀.caller⟩
  | submitted => exact ⟨m, hs⟩
  | dismissed =>
    refine ⟨m, ?_⟩
    simp only [effect]
    split
    · exact hs.same hs.here rfl
    · exact hs
  | delivered report =>
    exact ⟨_, hs.aside (getElem?_modifyMember hs.here _) rfl rfl rfl .refl⟩

theorem seated_effects (m₀ : Member) (es : List Effect) :
    ∀ {w : World Lobby} {m : Member}, Seated p id i e w m →
      ∃ m', Seated p id i e (es.foldl (fun w eff => w.effect i m₀ eff) w) m' := by
  induction es with
  | nil => exact fun hs => ⟨_, hs⟩
  | cons eff es ih =>
    intro w m hs
    obtain ⟨m', hs'⟩ := seated_effect hs m₀ eff
    exact ih hs'

theorem seated_carryOut (hs : Seated p id i e w m) {words : List UInt64}
    {within : List OwnerCall} {agent : Agent} {marks : List Agent.Mark}
    (hb : m.agent.stepWithin? (w.surroundings m.caller words) within = some (agent, marks)) :
    ∃ m', Seated p id i (e ++ (m.agent.toPlay?.map TurnEvent.played).toList)
      (w.carryOut i m agent (marks.map Agent.Mark.effect)) m' := by
  have hplayer := hs.player
  subst hplayer
  have ht := Agent.tenant_step hs.standing hs.tenant hb rfl
  exact seated_effects m _
    (hs.move (getElem?_modifyAgent hs fun _ => agent) rfl rfl hs.sound (.step hb) ht)

/-! ## Tasks -/

section Task
variable {j : JobId} {t : Task} (hs : Seated p id i e w m) (ht : m.agent.task? j = some t)
include hs ht

theorem seated_goOn {work : Work} (hb : t.work.MayBecome work)
    (hread : ∀ v, t.work = .awaitTurn v → work = .awaitTurn (v.caughtUp (w.service.hub.feed p))) :
    Seated p id i e (w.taskProgress i j work) { m with agent := m.agent.progress j work } :=
  hs.move (getElem?_modifyAgent hs _) rfl rfl hs.sound (.goOn ht hb)
    (Agent.tenant_goOn ht hs.tenant hb hread)

theorem seated_end {how : TaskEnd} (he : t.work.MayEnd how)
    (hread : ∀ v result, t.work = .awaitTurn v → how = .turn result →
      ∃ now, v.result? (w.service.hub.feed p) now = some result)
    (hrefused : ∀ u, how ≠ .submitted (.ok u)) :
    Seated p id i e (w.taskEnd i j how) { m with agent := m.agent.complete j how } :=
  hs.move (getElem?_modifyAgent hs _) rfl rfl hs.sound (.finish ht he)
    (Agent.tenant_end ht hs.tenant he hread hrefused)

/-- The service answers a turn that was handed over. -/
theorem seated_land {data : Bytes} {next : Option PlayerId}
    (hw : t.work = .submit data next true) :
    ∃ m', Seated p id i (e ++ TurnEvent.ofAnswer (w.service.takeTurn m.caller id data next).2)
      (w.landTurn i m.caller id j data next) m' := by
  have hplayer := hs.player
  subst hplayer
  have hend : t.work.MayEnd (.submitted (.ok ())) := by
    rw [hw]
    rfl
  rcases answer_of_callTurn w m.caller id data next with ⟨f, hans, hcall⟩ | ⟨room, hans, hok, hcall⟩
  · simp only [landTurn, hans, hcall, TurnEvent.ofAnswer, List.append_nil]
    have noted : Seated (w.player m.caller) id i e (w.note m.caller (.turnFailed id)) m :=
      hs.same hs.here rfl
    exact ⟨_, seated_end noted ht (by rw [hw]; rfl) (by simp [hw]) (by simp)⟩
  · simp only [landTurn, hans, hcall, TurnEvent.ofAnswer]
    obtain ⟨bytes, hl⟩ := hs.loaded
    have landed := Agent.tenant_land ht hs.tenant hs.sound hs.standing hl.allOpen hw hok
    refine ⟨{ m with agent := m.agent.complete j (.submitted (.ok ())) }, ?_⟩
    refine hs.move ?_ rfl rfl (Hub.sound_perform (a := .takeTurn _ _ _ _) hs.sound trivial)
      (.finish ht hend) landed
    simp [taskEnd, modifyAgent, modifyMember, World.note, hs.here]

theorem seated_stepSubmit {data : Bytes} {next : Option PlayerId} {issued : Bool}
    (hw : t.work = .submit data next issued)
    (hb : w.stepSubmit? i m.caller id j data next issued = some w') :
    ∃ m', Seated p id i (e ++ TurnEvent.ofAnswer (w.service.takeTurn m.caller id data next).2)
      w' m' := by
  cases issued with
  | true =>
    obtain rfl := Option.some.inj hb
    exact seated_land hs ht hw
  | false =>
    obtain rfl := Option.some.inj hb
    have noted : Seated p id i e (w.note m.caller (.takeTurn id data next)) m :=
      hs.same hs.here rfl
    have hissued : t.work.MayBecome (.submit data next true) := by
      rw [hw]
      rfl
    have issued := seated_goOn noted ht hissued (by simp [hw])
    exact seated_land issued (Agent.task?_progress ht _) rfl

theorem seated_hearProbe {invite localId : String} {reply : Option (Instant × ProbeAnswer)}
    (hw : t.work = .probe invite localId reply) (answer : ProbeAnswer) :
    ∃ m', Seated p id i e (w.hearProbe i m.caller j invite localId answer) m' := by
  have noted : Seated p id i e (w.note m.caller (.probeDone invite localId)) m :=
    hs.same hs.here rfl
  exact ⟨_, seated_end noted ht (by rw [hw]; trivial) (by simp [hw]) (by simp)⟩

theorem seated_stepProbe {invite localId : String} {reply : Option (Instant × ProbeAnswer)}
    (hw : t.work = .probe invite localId reply)
    (hb : w.stepProbe? i m j invite localId reply = some w') : ∃ m', Seated p id i e w' m' := by
  cases reply with
  | some due =>
    simp only [stepProbe?, Option.ite_none_right_eq_some, Option.some.injEq] at hb
    obtain ⟨-, rfl⟩ := hb
    exact seated_hearProbe hs ht hw _
  | none =>
    have noted : Seated p id i e (w.note m.caller (.probe invite localId)) m := hs.same hs.here rfl
    simp only [stepProbe?] at hb
    split at hb
    · obtain rfl := Option.some.inj hb
      exact seated_hearProbe noted ht hw _
    · obtain rfl := Option.some.inj hb
      exact ⟨_, seated_goOn noted ht (by rw [hw]; exact ⟨_, rfl⟩) (by simp [hw])⟩

theorem seated_stepTurnWatch {watch : TurnWatch} (hw : t.work = .awaitTurn watch)
    (hb : w.stepTurnWatch? i m.caller j watch = some w') : ∃ m', Seated p id i e w' m' := by
  have hplayer := hs.player
  subst hplayer
  simp only [stepTurnWatch?] at hb
  split at hb
  next result hr =>
    obtain rfl := Option.some.inj hb
    refine ⟨_, seated_end hs ht (by rw [hw]; exact ⟨_, _, hr⟩) ?_ (by simp)⟩
    intro v result' hv hend
    obtain rfl := Work.awaitTurn.inj (hw.symm.trans hv)
    obtain rfl := TaskEnd.turn.inj hend
    exact ⟨w.now, hr⟩
  next =>
    split at hb
    · cases hb
    · obtain rfl := Option.some.inj hb
      refine ⟨_, seated_goOn hs ht (by rw [hw]; exact ⟨_, rfl⟩) ?_⟩
      intro v hv
      obtain rfl := Work.awaitTurn.inj (hw.symm.trans hv)
      rfl

theorem seated_stepEndWatch {watch : EndWatch} (hw : t.work = .awaitEnd watch)
    (hb : w.stepEndWatch? i m.caller j watch = some w') : ∃ m', Seated p id i e w' m' := by
  simp only [stepEndWatch?] at hb
  split at hb
  next how hr =>
    obtain rfl := Option.some.inj hb
    exact ⟨_, seated_end hs ht (by rw [hw]; exact ⟨_, hr⟩) (by simp [hw]) (by simp)⟩
  next =>
    split at hb
    · cases hb
    · obtain rfl := Option.some.inj hb
      exact ⟨_, seated_goOn hs ht (by rw [hw]; exact ⟨_, rfl⟩) (by simp [hw])⟩

end Task

/-- Only a task that hands a turn over has its turn answered. -/
theorem append_landing (hm : w.members[i]? = some m) {j : JobId} {t : Task}
    (ht : m.agent.task? j = some t) (hw : t.work.activity ≠ .submission) (e : List TurnEvent) :
    e ++ w.landing i j = e := by
  obtain ⟨g, work⟩ := t
  have silent : w.landing i j = [] := by
    cases work with
    | submit => exact absurd rfl hw
    | _ => cases hr : m.agent.rendezvous <;> simp [landing, hm, ht, hr]
  rw [silent, List.append_nil]

theorem seated_stepTask (hs : Seated p id i e w m) {j : JobId} (hb : w.stepTask? i j = some w') :
    ∃ m', Seated p id i (e ++ w.landing i j) w' m' := by
  simp only [stepTask?, Option.bind_eq_bind, Option.bind_eq_some_iff] at hb
  obtain ⟨m', hm, v, hv, t, ht, hb⟩ := hb
  obtain rfl := Option.some.inj (hs.here.symm.trans hm)
  obtain ⟨g, work⟩ := t
  cases work with
  | submit data next issued =>
    obtain rfl := (hs.tenant.fits hv).1
    have hland : w.landing i j =
        TurnEvent.ofAnswer (w.service.takeTurn m.caller v.matchId data next).2 := by
      simp only [landing, hm, hv, ht]
    rw [hland]
    exact seated_stepSubmit hs ht rfl hb
  | awaitTurn watch =>
    rw [append_landing hm ht (by simp [Work.activity])]
    exact seated_stepTurnWatch hs ht rfl hb
  | awaitEnd watch =>
    rw [append_landing hm ht (by simp [Work.activity])]
    exact seated_stepEndWatch hs ht rfl hb
  | probe invite localId reply =>
    rw [append_landing hm ht (by simp [Work.activity])]
    exact seated_stepProbe hs ht rfl hb
  | timer due =>
    rw [append_landing hm ht (by simp [Work.activity])]
    simp only [Option.ite_none_right_eq_some, Option.some.injEq] at hb
    obtain ⟨-, rfl⟩ := hb
    exact ⟨_, seated_end hs ht trivial (by simp) (by simp)⟩

/-! ## Everything that happens -/

theorem seated_of_passes (hs : Seated p id i e w m) {new : List TurnEvent}
    (hp : Passes i id w new w') : ∃ m', Seated p id i (e ++ new) w' m' := by
  cases hp with
  | start hm hroom =>
    obtain rfl := Option.some.inj (hs.here.symm.trans hm)
    rw [List.append_nil]
    exact seated_start hs hroom
  | owner c =>
    rw [List.append_nil]
    exact ⟨_, hs.move (getElem?_modifyAgent hs _) rfl rfl hs.sound (.owner c)
      (hs.tenant.congr (Agent.sameWork_call m.agent c))⟩
  | step hm hb =>
    obtain rfl := Option.some.inj (hs.here.symm.trans hm)
    exact seated_carryOut hs hb
  | task hb => exact seated_stepTask hs hb
  | aside hm hm' ha hc hplayer hrun =>
    obtain rfl := Option.some.inj (hs.here.symm.trans hm)
    rw [List.append_nil]
    exact ⟨_, hs.aside hm' ha hc hplayer (hs.player ▸ hrun)⟩

/-- What is played on is newer, each time a turn is played. -/
theorem newer_of_passes (hs : Seated p id i e w m) {new : List TurnEvent}
    (hp : Passes i id w new w') :
    new = [] ∨ (∃ room, new = [.played room] ∧ Newer e room) ∨ ∃ v, new = [.accepted v] := by
  cases hp with
  | start => exact .inl rfl
  | owner => exact .inl rfl
  | aside => exact .inl rfl
  | @step m' _ _ _ _ hm hb =>
    obtain rfl := Option.some.inj (hs.here.symm.trans hm)
    cases hplay : m.agent.toPlay? with
    | none => exact .inl rfl
    | some room =>
      exact .inr (.inl ⟨room, rfl, Agent.newer_of_step hs.standing hs.tenant hb hplay⟩)
  | @task j _ hb =>
    have answered : ∀ answer, TurnEvent.ofAnswer answer = [] ∨
        ∃ v, TurnEvent.ofAnswer answer = [.accepted v] := by
      intro answer
      cases answer with
      | ok room => exact .inr ⟨room.version, rfl⟩
      | error => exact .inl rfl
    unfold landing
    split
    · exact .inl rfl
    · split
      · exact (answered _).imp_right .inr
      · exact .inl rfl

theorem newer_snoc {e : List TurnEvent} {x : TurnEvent}
    (h : ∀ e₁ room e₂, e = e₁ ++ .played room :: e₂ → Newer e₁ room)
    (hx : ∀ room, x = .played room → Newer e room) :
    ∀ e₁ room e₂, e ++ [x] = e₁ ++ .played room :: e₂ → Newer e₁ room := by
  intro e₁ room e₂ heq
  rcases List.eq_nil_or_concat e₂ with rfl | ⟨e₂, y, rfl⟩
  · obtain ⟨rfl, hxy⟩ := List.append_inj' heq rfl
    exact hx room (List.singleton_inj.1 hxy)
  · rw [List.concat_eq_append, ← List.cons_append, ← List.append_assoc] at heq
    exact h e₁ room e₂ (List.append_inj' heq rfl).1

end Seated

/-! ## Courses by hand -/

/-- The member at `i` goes on by itself: its rendezvous, or one of its tasks. -/
def nudge (w : World Lobby) (i : Nat) : Option JobId → List TurnEvent × World Lobby
  | some j =>
    match w.stepTask? i j with
    | some w' => (w.landing i j, w')
    | none => ([], w)
  | none =>
    match w.members[i]? with
    | none => ([], w)
    | some m =>
      match m.agent.stepWithin? (w.surroundings m.caller []) [] with
      | some (agent, marks) =>
        ((m.agent.toPlay?.map TurnEvent.played).toList,
          w.carryOut i m agent (marks.map Agent.Mark.effect))
      | none => ([], w)

/-- Several such steps, and all that happens to the agent's turns. -/
def nudges (w : World Lobby) (i : Nat) : List (Option JobId) → List TurnEvent × World Lobby
  | [] => ([], w)
  | part :: parts =>
    let (new, w) := w.nudge i part
    let (more, w) := w.nudges i parts
    (new ++ more, w)

/-- Somebody calls the hub. -/
def called (w : World Lobby) (a : Hub.Action) : World Lobby :=
  { w with service := { w.service with hub := w.service.hub.perform a } }

section Course
variable {i : Nat} {id : MatchId} {w₀ w : World Lobby} {e : List TurnEvent}

theorem Course.nudge (h : Course i id w₀ e w) (part : Option JobId) :
    Course i id w₀ (e ++ (w.nudge i part).1) (w.nudge i part).2 := by
  have stays : Course i id w₀ (e ++ []) w := (List.append_nil e).symm ▸ h
  cases part with
  | some j =>
    simp only [World.nudge]
    split
    next hb => exact h.snoc (.task hb)
    next => exact stays
  | none =>
    simp only [World.nudge]
    split
    · exact stays
    next hm =>
      split
      next hb => exact h.snoc (.step hm hb)
      next => exact stays

theorem Course.nudges (parts : List (Option JobId)) :
    ∀ {e : List TurnEvent} {w : World Lobby}, Course i id w₀ e w →
      Course i id w₀ (e ++ (w.nudges i parts).1) (w.nudges i parts).2 := by
  induction parts with
  | nil => exact fun h => (List.append_nil _).symm ▸ h
  | cons part parts ih =>
    intro e w h
    have rest := ih (h.nudge part)
    rw [List.append_assoc] at rest
    exact rest

theorem Course.called {m : Member} (h : Course i id w₀ e w) (hm : w.members[i]? = some m)
    {a : Hub.Action} (hf : a.Fresh w.service.hub) (ha : a.isTurnOf (w.player m.caller) id = false) :
    Course i id w₀ e (w.called a) :=
  (List.append_nil e) ▸ h.snoc (.aside hm hm rfl rfl rfl (.call .refl hf ha))

end Course

/-- Ann has created a room, and has an agent for it that is a client. -/
def table (c : MatchRequest) : World Lobby :=
  { service :=
      { hub := [Hub.Action.create ⟨"#1"⟩ ⟨"ann"⟩ c].foldl Hub.perform {}
        handles := [⟨⟨"ann"⟩, 0⟩]
        accounts := [true] }
    members := [{ caller := 0, probes := { usual := ⟨.reachable, .zero⟩ },
                  agent := .ofRole (.client none) {} }] }

theorem reachable_table (c : MatchRequest) : (table c).service.hub.Reachable :=
  Hub.Reachable.empty.call (a := .create ⟨"#1"⟩ ⟨"ann"⟩ c) (by simp [Hub.Action.Fresh])

/-- The room as ann sees it first. -/
def firstSight (c : MatchRequest) : Match :=
  (Room.ofRequest ⟨"#1"⟩ ⟨"ann"⟩ c).snapshot ⟨"ann"⟩

/-! ## What a turn is played on -/

/-- Let an agent be started on what its player sees just then, and let the player take
no turn on the match elsewhere.  Whatever else happens, and in whatever order: when a
turn is played after one was accepted, at a version, the snapshot has a later version;
or else it was told when somebody took the open slot, after the agent had decided that
turn on a snapshot of the same version and before the turn arrived, and the turn had
gone to a player who was there already. -/
theorem played_newer_than_accepted {w₀ w : World Lobby} {i : Nat} {id : MatchId} {m₀ : Member}
    {role : Role} {timing : Timing} {e : List TurnEvent} (hhub : w₀.service.hub.Reachable)
    (hm : w₀.members[i]? = some m₀) (ha : m₀.agent = .ofRole role timing)
    (hrun : Course i id w₀ e w) :
    ∀ e₁ room e₂, e = e₁ ++ .played room :: e₂ → ∀ v, .accepted v ∈ e₁ →
      v < room.version ∨
        ∃ room₀, .played room₀ ∈ e₁ ∧ room₀.Joined room ∧ v = room.version + 1 ∧
          room₀.opponent? ≠ none := by
  suffices h : (∃ m, Seated (w₀.player m₀.caller) id i e w m) ∧
      ∀ e₁ room e₂, e = e₁ ++ .played room :: e₂ → Newer e₁ room from h.2
  induction hrun with
  | nil =>
    refine ⟨⟨m₀, hm, rfl, Hub.reachable_sound hhub, ?_, ?_, ?_⟩, by simp⟩
    · rw [ha]
      exact Agent.standing_ofRole role timing
    · rw [ha]
      exact ⟨_, (Agent.Run.nil (a := .ofRole role timing)).loaded⟩
    · rw [ha]
      exact .unstarted rfl rfl
  | @snoc e new w₁ w₂ _ hp ih =>
    obtain ⟨⟨m, hs⟩, hnewer⟩ := ih
    refine ⟨seated_of_passes hs hp, ?_⟩
    rcases newer_of_passes hs hp with rfl | ⟨room, rfl, hroom⟩ | ⟨v, rfl⟩
    · rw [List.append_nil]
      exact hnewer
    · refine newer_snoc hnewer ?_
      rintro room' ⟨⟩
      exact hroom
    · refine newer_snoc hnewer ?_
      rintro room ⟨⟩

/-- Ann's turn is accepted, bob takes his, and so she plays on a newer snapshot. -/
theorem played_newer_than_accepted_when_bob_answers :
    let c : MatchRequest := .inviting ⟨"bob"⟩
    ∃ e w room, Course 0 ⟨"#1"⟩ (table c) e w ∧
      e = [.played (firstSight c), .accepted 1] ++ .played room :: [] ∧ room.version = 2 ∧
      (1 < room.version ∨
        ∃ room₀, .played room₀ ∈ [TurnEvent.played (firstSight c), .accepted 1] ∧
          room₀.Joined room ∧ 1 = room.version + 1 ∧ room₀.opponent? ≠ none) := by
  intro c
  have started : Course 0 ⟨"#1"⟩ (table c) [] ((table c).start 0 (firstSight c)).2 :=
    Course.nil.snoc (.start rfl rfl)
  have waiting := started.nudges [none, some 0, none]
  have answered := waiting.called
    (a := .takeTurn ⟨"bob"⟩ ⟨"#1"⟩ (Payload.withInvite "x").encode (some ⟨"ann"⟩)) rfl trivial rfl
  have run := answered.nudges [some 1, none]
  let room : Match :=
    { firstSight c with data := some (Payload.withInvite "x").encode, version := 2 }
  obtain ⟨e, he, run⟩ : ∃ e, e = [.played (firstSight c), .accepted 1] ++ .played room :: [] ∧
      Course 0 ⟨"#1"⟩ (table c) e _ := ⟨_, by decide +kernel, run⟩
  exact ⟨e, _, room, run, he, rfl,
    played_newer_than_accepted (reachable_table c) rfl rfl run _ room [] he 1 (by simp)⟩

/-- Cy takes the open slot of ann's room while her turn is on its way to bob.  When it
has been accepted, what she was told of cy is taken for another turn of hers, and she
gives the match up. -/
theorem stale_snapshot_played :
    let c : MatchRequest := ⟨[⟨"bob"⟩], true⟩
    ∃ e w room, Course 0 ⟨"#1"⟩ (table c) e w ∧
      e = [.played (firstSight c), .accepted 1, .played room] ∧ room.version = 0 ∧
      ∃ m ∈ w.members, ⟨⟨"#1"⟩, .matchInvalid⟩ ∈ m.delivered := by
  intro c
  have started : Course 0 ⟨"#1"⟩ (table c) [] ((table c).start 0 (firstSight c)).2 :=
    Course.nil.snoc (.start rfl rfl)
  have decided := started.nudges [none]
  have joined := decided.called (a := .create ⟨"#2"⟩ ⟨"cy"⟩ .autoMatching) rfl
    (by decide +kernel) rfl
  have run := joined.nudges [some 0, none, some 1, none]
  let room : Match :=
    { firstSight c with status := .active, participants := [⟨"ann"⟩, ⟨"bob"⟩, ⟨"cy"⟩] }
  exact ⟨_, _, room, run, by decide +kernel, rfl, by decide +kernel⟩

/-- Nor may ann take turns of her own meanwhile: bob's answer to such a turn is older
than the turn of her agent, and is still played on. -/
example :
    let w := ((table (.inviting ⟨"bob"⟩)).start 0 (firstSight (.inviting ⟨"bob"⟩))).2
    let w := (w.nudges 0 [none]).2
    let w := w.called (.takeTurn ⟨"ann"⟩ ⟨"#1"⟩ [7] (some ⟨"bob"⟩))
    let w := w.called (.takeTurn ⟨"bob"⟩ ⟨"#1"⟩ [8] (some ⟨"ann"⟩))
    ∃ room, (w.nudges 0 [some 0, none, some 1, none]).1 = [.accepted 3, .played room] ∧
      room.version = 2 :=
  ⟨_, rfl, rfl⟩

end World

end TurnRendezvous
