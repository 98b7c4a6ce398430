/-
# `World.Tends` — the parts of one member

A part of a member that makes a step changes the member and the hub, and starts
dismissals; it leaves everything else as it is (`World.Tends`).  What it does to the
agent and to the hub is said in their own terms: a task labours over the hub
(`toiled_stepTask`), and a step of the rendezvous hands its reports to the owner and
its dismissals to the world (`tends_carryOut`).
-/
import TurnRendezvous.Proofs.Agent.Labour
import TurnRendezvous.Proofs.World.Gathering

namespace TurnRendezvous

/-- The report that reaches the owner by an effect. -/
def Effect.report? : Effect → Option Report
  | .delivered r => some r
  | _ => none

/-- The dismissal that an effect on a member starts. -/
def Member.dismissal? (m : Member) : Effect → Option (Caller × MatchId)
  | .dismissed => m.agent.rendezvous.map fun r => (m.caller, r.matchId)
  | _ => none

/-- The player is listening now, if not before. -/
def Hub.Tuned (p : PlayerId) (h h' : Hub) : Prop := h' = h ∨ h' = h.subscribe p

theorem Hub.Tuned.onward {p : PlayerId} {h h' : Hub} (ht : Hub.Tuned p h h') :
    Hub.Onward h h' := by
  rcases ht with rfl | rfl
  · exact .refl
  · exact .call (a := .subscribe p) .refl trivial

theorem Hub.Tuned.staying {p : PlayerId} {h h' : Hub} (ht : Hub.Tuned p h h') (q : PlayerId) :
    Hub.Staying q h h' := by
  rcases ht with rfl | rfl
  · exact .refl
  · exact .one (a := .subscribe p) trivial (by simp)

theorem Hub.Tuned.later {p : PlayerId} {h h' : Hub} (ht : Hub.Tuned p h h') : Hub.Later h h' :=
  (ht.staying p).later

/-- To subscribe twice is to subscribe once. -/
theorem Hub.subscribe_subscribe (h : Hub) (p : PlayerId) :
    (h.subscribe p).subscribe p = h.subscribe p := by
  have hlisted : ((h.subscribe p).listeners.lookup p).isSome = true := by
    cases hp : h.listeners.lookup p with
    | none => exact (Hub.listens_subscribe_self hp).listed
    | some f => simp [Hub.subscribe, hp]
  rw [Hub.subscribe, if_pos hlisted]

theorem Hub.Tuned.trans {p : PlayerId} {h h' h'' : Hub} (h₁ : Hub.Tuned p h h')
    (h₂ : Hub.Tuned p h' h'') : Hub.Tuned p h h'' := by
  rcases h₁ with rfl | rfl
  · exact h₂
  · rcases h₂ with rfl | rfl
    · exact .inr rfl
    · exact .inr (Hub.subscribe_subscribe h p)

namespace World

/-- The member at `i` becomes `m`, some dismissals `ds` are started, and the hub may
change; the rest of the world stays. -/
structure Tends (i : Nat) (m : Member) (ds : List (Caller × MatchId)) (w w' : World Lobby) :
    Prop where
  here : w'.members[i]? = some m
  others : ∀ y, i ≠ y → w'.members[y]? = w.members[y]?
  handles : w'.service.handles = w.service.handles
  accounts : w'.service.accounts = w.service.accounts
  dismissals : w'.dismissals = w.dismissals ++ ds
  quests : w'.quests = w.quests
  now : w'.now = w.now

section Tends
variable {i : Nat} {m m₁ m₂ : Member} {ds ds' : List (Caller × MatchId)} {w w' w'' : World Lobby}

theorem Tends.trans (h : Tends i m₁ ds w w') (h' : Tends i m₂ ds' w' w'') :
    Tends i m₂ (ds ++ ds') w w'' where
  here := h'.here
  others y hy := (h'.others y hy).trans (h.others y hy)
  handles := h'.handles.trans h.handles
  accounts := h'.accounts.trans h.accounts
  dismissals := by rw [h'.dismissals, h.dismissals, List.append_assoc]
  quests := h'.quests.trans h.quests
  now := h'.now.trans h.now

/-- The player of a caller is known from the handles. -/
theorem player_congr (h : w'.service.handles = w.service.handles) (c : Caller) :
    w'.player c = w.player c := by
  simp only [World.player, Lobby.player, Lobby.handle, h]

theorem Tends.player (h : Tends i m ds w w') (c : Caller) : w'.player c = w.player c :=
  player_congr h.handles c

theorem Tends.isSignedIn (h : Tends i m ds w w') (c : Caller) :
    w'.service.isSignedIn c = w.service.isSignedIn c := by
  simp only [Lobby.isSignedIn, Lobby.handle, h.handles, h.accounts]

/-- The member changes, and nothing else. -/
theorem tends_modify (hm : w.members[i]? = some m) (f : Member → Member) :
    Tends i (f m) [] w (w.modifyMember i f) where
  here := getElem?_modifyMember hm f
  others y hy := by simp [modifyMember, hy]
  handles := rfl
  accounts := rfl
  dismissals := (List.append_nil _).symm
  quests := rfl
  now := rfl

theorem tends_modifyAgent (hm : w.members[i]? = some m) (f : Agent → Agent) :
    Tends i { m with agent := f m.agent } [] w (w.modifyAgent i f) :=
  tends_modify hm fun m => { m with agent := f m.agent }

/-- Only the hub and the log change. -/
theorem tends_same (hm : w.members[i]? = some m) (hub : Hub) (log : List LogEntry) :
    Tends i m [] w { w with service := { w.service with hub }, log } where
  here := hm
  others _ _ := rfl
  handles := rfl
  accounts := rfl
  dismissals := (List.append_nil _).symm
  quests := rfl
  now := rfl

theorem tends_subscribe (hm : w.members[i]? = some m) (c : Caller) :
    Tends i m [] w (w.subscribe c) :=
  ⟨hm, fun _ _ => rfl, rfl, rfl, (List.append_nil _).symm, rfl, rfl⟩

/-! ## Steps of the rendezvous -/

theorem tends_effect (hm : w.members[i]? = some m) (m₀ : Member) (e : Effect) :
    Tends i { m with delivered := m.delivered ++ e.report?.toList } (m₀.dismissal? e).toList w
        (w.effect i m₀ e) ∧
      Hub.Tuned (w.player m₀.caller) w.service.hub (w.effect i m₀ e).service.hub := by
  cases e with
  | subscribed =>
    refine ⟨?_, .inr rfl⟩
    simpa [Effect.report?, Member.dismissal?, effect] using tends_subscribe hm m₀.caller
  | submitted =>
    refine ⟨?_, .inl rfl⟩
    simpa [Effect.report?, Member.dismissal?, effect] using tends_same hm w.service.hub w.log
  | dismissed =>
    simp only [effect, Effect.report?, Member.dismissal?, Option.toList_none, List.append_nil]
    cases m₀.agent.rendezvous with
    | none => exact ⟨tends_same hm w.service.hub w.log, .inl rfl⟩
    | some r => exact ⟨⟨hm, fun _ _ => rfl, rfl, rfl, rfl, rfl, rfl⟩, .inl rfl⟩
  | delivered report =>
    exact ⟨tends_modify hm fun m => { m with delivered := m.delivered ++ [report] }, .inl rfl⟩

theorem tends_effects (m₀ : Member) (es : List Effect) :
    ∀ {w : World Lobby} {m : Member}, w.members[i]? = some m →
      Tends i { m with delivered := m.delivered ++ es.filterMap Effect.report? }
          (es.filterMap m₀.dismissal?) w (es.foldl (fun w e => w.effect i m₀ e) w) ∧
        Hub.Tuned (w.player m₀.caller) w.service.hub
          (es.foldl (fun w e => w.effect i m₀ e) w).service.hub := by
  induction es with
  | nil =>
    intro w m hm
    refine ⟨?_, .inl rfl⟩
    simpa using tends_same hm w.service.hub w.log
  | cons e es ih =>
    intro w m hm
    obtain ⟨he, hub⟩ := tends_effect hm m₀ e
    obtain ⟨hes, hubs⟩ := ih he.here
    rw [he.player] at hubs
    refine ⟨?_, hub.trans hubs⟩
    have both := he.trans hes
    have happend {β : Type} (f : Effect → Option β) :
        (f e).toList ++ es.filterMap f = (e :: es).filterMap f := by
      cases hf : f e <;> simp [hf]
    simp only [List.append_assoc, happend] at both
    exact both

/-- What a step of the rendezvous does to the world. -/
theorem tends_carryOut (hm : w.members[i]? = some m) (agent : Agent) (es : List Effect) :
    Tends i { m with agent, delivered := m.delivered ++ es.filterMap Effect.report? }
        (es.filterMap m.dismissal?) w (w.carryOut i m agent es) ∧
      Hub.Tuned (w.player m.caller) w.service.hub (w.carryOut i m agent es).service.hub := by
  have moved := tends_modifyAgent hm fun _ => agent
  obtain ⟨hes, hub⟩ := tends_effects m es moved.here
  exact ⟨moved.trans hes, hub⟩

/-- The step that a rendezvous makes by itself is one without calls of the owner. -/
theorem carryOut_of_stepRendezvous {words : List UInt64}
    (hb : w.stepRendezvous? i words = some w') :
    ∃ m agent marks, w.members[i]? = some m ∧
      m.agent.stepWithin? (w.surroundings m.caller words) [] = some (agent, marks) ∧
      w' = w.carryOut i m agent (marks.map Agent.Mark.effect) := by
  simp only [stepRendezvous?, Option.bind_eq_bind, Option.bind_eq_some_iff, Option.pure_def,
    Option.some.injEq] at hb
  obtain ⟨m, hm, ⟨agent, effects⟩, hstep, rfl⟩ := hb
  rw [← Agent.stepWithin?_nil] at hstep
  obtain ⟨⟨agent', marks⟩, hs, heq⟩ := Option.map_eq_some_iff.1 hstep
  obtain ⟨rfl, rfl⟩ := Prod.ext_iff.1 heq
  exact ⟨m, agent', marks, hm, hs, rfl⟩

/-! ## Tasks -/

/-- A task does one thing. -/
def Laboured (i : Nat) (m : Member) (w w' : World Lobby) : Prop :=
  ∃ agent, Agent.Labours (w.player m.caller) w.now w.service.hub m.agent w'.service.hub agent ∧
    Tends i { m with agent } [] w w'

/-- What a step of a task does to the world: its agent toils, and only that. -/
def Toiled (i : Nat) (m : Member) (w w' : World Lobby) : Prop :=
  ∃ agent, Agent.Toils (w.player m.caller) w.now w.service.hub m.agent w'.service.hub agent ∧
    Tends i { m with agent } [] w w'

theorem Laboured.toiled (h : Laboured i m w w') : Toiled i m w w' :=
  h.imp fun _ h => h.imp_left .once

/-- What is noted first does not count. -/
theorem Laboured.noted {c : Caller} {call : Call} (h : Laboured i m (w.note c call) w')
    (hm : w.members[i]? = some m) : Laboured i m w w' :=
  h.imp fun _ h => h.imp_right (tends_same hm w.service.hub _).trans

section Task
variable {j : JobId} {t : Task} (hm : w.members[i]? = some m) (ht : m.agent.task? j = some t)
include hm ht

theorem laboured_goOn {work : Work} (hw : t.work.GoesOn (w.service.hub.feed (w.player m.caller))
    w.now work) : Laboured i m w (w.taskProgress i j work) :=
  ⟨_, .goOn ht hw, tends_modifyAgent hm (·.progress j work)⟩

theorem laboured_end {how : TaskEnd} (hw : t.work.Ends (w.service.hub.feed (w.player m.caller))
    w.now how) : Laboured i m w (w.taskEnd i j how) :=
  ⟨_, .finish ht hw, tends_modifyAgent hm (·.complete j how)⟩

/-- The service answers a turn. -/
theorem laboured_land {r : Rendezvous} (hr : m.agent.rendezvous = some r) {data : Bytes}
    {next : Option PlayerId} (hw : t.work = .submit data next true) :
    Laboured i m w (w.landTurn i m.caller r.matchId j data next) := by
  rcases answer_of_callTurn w m.caller r.matchId data next with
    ⟨f, -, hcall⟩ | ⟨room, -, hok, hcall⟩
  · simp only [landTurn, hcall]
    let v := w.note m.caller (.turnFailed r.matchId)
    have refused : Laboured i m v (v.taskEnd i j (.submitted (.error f))) :=
      laboured_end (w := v) hm ht (by rw [hw]; trivial)
    exact refused.noted hm
  · simp only [landTurn, hcall]
    have noted := tends_same hm
      (w.service.hub.takeTurn (w.player m.caller) r.matchId data next).1
      (w.log ++ [⟨m.caller, .turnLanded r.matchId⟩])
    exact ⟨_, .land ht hw hr hok,
      noted.trans (tends_modifyAgent noted.here (·.complete j (.submitted (.ok ()))))⟩

theorem toiled_stepSubmit {r : Rendezvous} (hr : m.agent.rendezvous = some r) {data : Bytes}
    {next : Option PlayerId} {issued : Bool} (hw : t.work = .submit data next issued)
    (hb : w.stepSubmit? i m.caller r.matchId j data next issued = some w') : Toiled i m w w' := by
  cases issued with
  | true =>
    obtain rfl := Option.some.inj hb
    exact (laboured_land hm ht hr hw).toiled
  | false =>
    obtain rfl := Option.some.inj hb
    have noted : Tends i m [] w (w.note m.caller (.takeTurn r.matchId data next)) :=
      tends_same hm w.service.hub _
    have issued :=
      noted.trans (tends_modifyAgent noted.here (·.progress j (.submit data next true)))
    obtain ⟨agent, hl, htends⟩ := laboured_land issued.here (Agent.task?_progress ht _)
      (Agent.rendezvous_progress hr j (.submit data next true)) rfl
    exact ⟨agent, .atOnce ht hw hl, issued.trans htends⟩

theorem laboured_hearProbe {invite localId : String} {reply : Option (Instant × ProbeAnswer)}
    (hw : t.work = .probe invite localId reply) (answer : ProbeAnswer) :
    Laboured i m w (w.hearProbe i m.caller j invite localId answer) := by
  let v := w.note m.caller (.probeDone invite localId)
  have heard : Laboured i m v (v.taskEnd i j (.probed answer)) :=
    laboured_end (w := v) hm ht (by rw [hw]; trivial)
  exact heard.noted hm

theorem laboured_stepProbe {invite localId : String} {reply : Option (Instant × ProbeAnswer)}
    (hw : t.work = .probe invite localId reply)
    (hb : w.stepProbe? i m j invite localId reply = some w') : Laboured i m w w' := by
  cases reply with
  | some due =>
    simp only [stepProbe?, Option.ite_none_right_eq_some, Option.some.injEq] at hb
    obtain ⟨-, rfl⟩ := hb
    exact laboured_hearProbe hm ht hw _
  | none =>
    suffices asked : Laboured i m (w.note m.caller (.probe invite localId)) w' from asked.noted hm
    simp only [stepProbe?] at hb
    split at hb
    · obtain rfl := Option.some.inj hb
      exact laboured_hearProbe (w := w.note m.caller (.probe invite localId)) hm ht hw _
    · obtain rfl := Option.some.inj hb
      exact laboured_goOn (w := w.note m.caller (.probe invite localId)) hm ht
        (by rw [hw]; exact ⟨_, rfl⟩)

theorem laboured_stepTurnWatch {watch : TurnWatch} (hw : t.work = .awaitTurn watch)
    (hb : w.stepTurnWatch? i m.caller j watch = some w') : Laboured i m w w' := by
  simp only [stepTurnWatch?] at hb
  split at hb
  next result hr =>
    obtain rfl := Option.some.inj hb
    exact laboured_end hm ht (by rw [hw]; exact hr)
  next hr =>
    split at hb
    · cases hb
    · obtain rfl := Option.some.inj hb
      exact laboured_goOn hm ht (by rw [hw]; exact ⟨hr, rfl⟩)

theorem laboured_stepEndWatch {watch : EndWatch} (hw : t.work = .awaitEnd watch)
    (hb : w.stepEndWatch? i m.caller j watch = some w') : Laboured i m w w' := by
  simp only [stepEndWatch?] at hb
  split at hb
  next how hr =>
    obtain rfl := Option.some.inj hb
    exact laboured_end hm ht (by rw [hw]; exact hr)
  next hr =>
    split at hb
    · cases hb
    · obtain rfl := Option.some.inj hb
      exact laboured_goOn hm ht (by rw [hw]; exact ⟨hr, rfl⟩)

end Task

theorem toiled_stepTask {j : JobId} (hb : w.stepTask? i j = some w') :
    ∃ m, w.members[i]? = some m ∧ Toiled i m w w' := by
  simp only [stepTask?, Option.bind_eq_bind, Option.bind_eq_some_iff] at hb
  obtain ⟨m, hm, r, hr, ⟨g, work⟩, ht, hb⟩ := hb
  refine ⟨m, hm, ?_⟩
  cases work with
  | submit => exact toiled_stepSubmit hm ht hr rfl hb
  | awaitTurn => exact (laboured_stepTurnWatch hm ht rfl hb).toiled
  | awaitEnd => exact (laboured_stepEndWatch hm ht rfl hb).toiled
  | probe => exact (laboured_stepProbe hm ht rfl hb).toiled
  | timer =>
    simp only [Option.ite_none_right_eq_some, Option.some.injEq] at hb
    obtain ⟨-, rfl⟩ := hb
    have up : Laboured i m w (w.taskEnd i j .timeUp) := laboured_end hm ht trivial
    exact up.toiled

end Tends

/-! ## Dismissals -/

theorem later_of_acts {l l' : Lobby} (ha : l.Acts l') : Hub.Later l.hub l'.hub := by
  cases ha with
  | refused => exact .refl
  | performed hn => exact .one hn

/-- Who is signed in does not depend on the hub. -/
theorem isSignedIn_of_acts {l l' : Lobby} (ha : l.Acts l') (c : Caller) :
    Matchmaker.isSignedIn l' c = Matchmaker.isSignedIn l c := by
  cases ha with
  | refused => rfl
  | performed => rfl

/-- A dismissal reaches the hub or does nothing. -/
theorem hub_dismiss (l : Lobby) (c : Caller) (id : MatchId) :
    (l.dismiss c id).1.hub = l.hub ∨
      (l.dismiss c id).1.hub = l.hub.perform (.dismiss (l.player c) id) := by
  unfold Lobby.dismiss Lobby.act
  split
  · exact .inr rfl
  · exact .inl rfl

/-- A dismissal that is carried out is a call, and nothing else. -/
theorem acts_of_stepDismissal {w w' : World Lobby} {n : Nat} (hb : w.stepDismissal? n = some w') :
    w.service.Acts w'.service ∧ w'.members = w.members ∧ w'.quests = w.quests := by
  obtain ⟨⟨c, id⟩, -, rfl⟩ := Option.map_eq_some_iff.1 hb
  exact ⟨Lobby.acts_dismiss w.service c id, rfl, rfl⟩


end World

end TurnRendezvous
