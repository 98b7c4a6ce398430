/-
# `World.honest_of_history` — an honest world stays honest

What is left of a world besides its tasks: rendezvous that take a notice,
agents that are started, sessions, and the calls from outside.

* `honest_carryOut`: a step of a rendezvous, with its owner's calls in callbacks;
* `honest_start`: a start on a room as its player saw it;
* `honest_stepSession`: a session plays the room that it got as an answer;
* `honest_of_happening`, `honest_of_history`: so do all together.
-/
import TurnRendezvous.Proofs.World.Turns

namespace TurnRendezvous

namespace Session
variable {s : Session} {room : Match}

theorem not_starting_of_begin {signedIn : Bool} : (s.begin signedIn).stage ≠ .starting room := by
  simp only [begin, finish]
  split
  · simp
  · split <;> simp

theorem not_starting_of_judge {id : MatchId} {r : Report} {signedIn : Bool} :
    (s.judge id r signedIn).stage ≠ .starting room := by
  simp only [judge, finish]
  split
  · simp
  · split <;> simp

theorem eq_of_starting_join {answer : Except Failure Match}
    (h : (s.join answer).stage = .starting room) : answer = .ok room := by
  cases answer with
  | ok m =>
    obtain rfl := SessionStage.starting.inj h
    rfl
  | error e =>
    simp only [join, retry, finish] at h
    split at h <;> cases h

/-- A session is about to start on a room only if that was its answer. -/
theorem starting_of_advance {input : SessionInput} (h : (s.advance input).stage = .starting room) :
    s.stage = .starting room ∨ input = .answered (.ok room) := by
  cases input with
  | answered answer =>
    simp only [advance] at h
    split at h
    · exact .inr (congrArg SessionInput.answered (eq_of_starting_join h))
    · exact .inl h
  | checked signedIn =>
    simp only [advance] at h
    split at h
    · exact absurd h not_starting_of_begin
    · exact .inl h
  | heard r signedIn =>
    simp only [advance] at h
    split at h
    · exact absurd h not_starting_of_judge
    · exact .inl h
  | started ok =>
    simp only [advance, finish] at h
    split at h
    · split at h <;> cases h
    · exact .inl h
  | silenced | cancelled | dismissed =>
    simp only [advance] at h
    split at h
    · cases h
    · exact .inl h

end Session

namespace World

variable {P : Room → Prop} {w w' : World Lobby}

/-! ## Rendezvous -/

theorem honest_effect (h : w.Honest P) (i : Nat) (m : Member) {e : Effect}
    (he : ∀ id text, e = .delivered ⟨id, .complete (some text)⟩ → Recorded P id text) :
    (w.effect i m e).Honest P := by
  cases e with
  | subscribed => exact honest_subscribe h _
  | submitted => exact h
  | dismissed =>
    simp only [effect]
    split
    · exact h.aside rfl rfl (List.Subset.refl _) List.prefix_rfl rfl
    · exact h
  | delivered report =>
    refine honest_deliver h i ?_
    intro id text hr
    exact he id text (congrArg Effect.delivered hr)

theorem honest_effects (i : Nat) (m : Member) (es : List Effect) :
    ∀ {w : World Lobby}, w.Honest P →
      (∀ id text, .delivered ⟨id, .complete (some text)⟩ ∈ es → Recorded P id text) →
      (es.foldl (fun w e => w.effect i m e) w).Honest P := by
  induction es with
  | nil => exact fun h _ => h
  | cons e es ih =>
    intro w h he
    refine ih (honest_effect h i m ?_) ?_
    · intro id text heq
      exact he id text (heq ▸ List.mem_cons_self)
    · intro id text hmem
      exact he id text (List.mem_cons_of_mem e hmem)

/-- A step of a rendezvous, with its owner's calls in the callbacks. -/
theorem honest_carryOut (h : w.Honest P) {i : Nat} {m : Member} (hm : w.members[i]? = some m)
    {s : Surroundings} {within : List OwnerCall} {agent : Agent} {marks : List Agent.Mark}
    (hs : m.agent.stepWithin? s within = some (agent, marks)) :
    (w.carryOut i m agent (marks.map Agent.Mark.effect)).Honest P := by
  have hmv : m.agent.Moves (.step s within) marks agent := .step hs
  have hup := h.members m (List.mem_of_getElem? hm)
  refine honest_effects i m _ (honest_move h i ?_) ?_
  · intro m' hm'
    obtain rfl := Option.some.inj (hm.symm.trans hm')
    exact ⟨_, _, hmv, trivial⟩
  · intro id text hmem
    exact recorded_of_found (Agent.found_of_moves hup.standing hup.faithful hmv hmem)

theorem honest_stepRendezvous (h : w.Honest P) {i : Nat} {words : List UInt64}
    (hs : w.stepRendezvous? i words = some w') : w'.Honest P := by
  simp only [stepRendezvous?, Option.bind_eq_bind, Option.bind_eq_some_iff] at hs
  obtain ⟨m, hm, ⟨agent, effects⟩, hstep, hw⟩ := hs
  obtain rfl := Option.some.inj hw
  rw [← Agent.stepWithin?_nil] at hstep
  obtain ⟨⟨agent', marks⟩, hs, heq⟩ := Option.map_eq_some_iff.1 hstep
  obtain ⟨rfl, rfl⟩ := Prod.ext_iff.1 heq
  exact honest_carryOut h hm hs

/-! ## Starts -/

theorem honest_addMember (h : w.Honest P) {c : Caller} (hc : c < w.service.handles.length)
    (probes : ProbeScript) (role : Role) (timing : Timing) :
    (w.addMember { caller := c, probes, agent := .ofRole role timing }).2.Honest P := by
  refine h.same_hub
    (.of_subset (List.subset_append_left _ _) (List.Subset.refl _) List.prefix_rfl) rfl ?_ ?_
  · intro m hm
    rcases List.mem_append.1 hm with hm | hm
    · exact .inl hm
    · obtain rfl := List.mem_singleton.1 hm
      refine .inr ⟨hc, Agent.standing_ofRole role timing, Agent.faithful_ofRole _ role timing, ?_⟩
      intro id text hmem
      cases hmem
  · intro q hq
    exact .inl hq

/-- A start on a room as the player saw it. -/
theorem honest_start (h : w.Honest P) (i : Nat) {room : Match}
    (hr : ∀ m, w.members[i]? = some m → Shown P (w.player m.caller) room) :
    (w.start i room).2.Honest P := by
  simp only [start]
  split
  · exact h
  next m hm =>
    split
    · exact h
    next agent hs =>
      show ((w.subscribe m.caller).modifyAgent i fun _ => agent).Honest P
      refine honest_move (honest_subscribe h m.caller) i ?_
      intro m' hm'
      obtain rfl := Option.some.inj (hm.symm.trans hm')
      exact ⟨_, _, .start hs, hr m hm⟩

/-! ## Sessions -/

theorem honest_tell (h : w.Honest P) (k : Nat) {input : SessionInput}
    (hi : ∀ q room, w.quests[k]? = some q → input = .answered (.ok room) →
      Shown P (w.player q.caller) room) : (w.tellSession k input).Honest P := by
  refine honest_modifyQuest h k ?_
  intro q hq hcan
  refine ⟨hcan.caller, hcan.answer, ?_⟩
  intro room hroom
  rcases Session.starting_of_advance hroom with hold | hnew
  · exact hcan.room room hold
  · exact hi q room hq hnew

/-- What is no answer brings no room. -/
theorem honest_tell_of_ne (h : w.Honest P) (k : Nat) {input : SessionInput}
    (hi : ∀ room, input ≠ .answered (.ok room)) : (w.tellSession k input).Honest P :=
  honest_tell h k fun _ room _ heq => absurd heq (hi room)

theorem honest_questSettle (h : w.Honest P) (k i : Nat) {input : SessionInput}
    (hi : ∀ room, input ≠ .answered (.ok room)) : (w.questSettle k i input).Honest P := by
  have told := honest_tell_of_ne h k hi
  simp only [questSettle]
  split
  · split
    · exact told
    · exact honest_detach told i
  · exact honest_owner told i .giveUp
  · exact honest_detach told i

/-- The answer to a request for a room is that room as it is then. -/
theorem shown_of_create (h : w.Honest P) {c : Caller} {request : MatchRequest} {m : Match}
    (hm : (w.service.create c request).2 = .ok m) :
    Shown (Hub.With P (w.service.create c request).1.hub) (w.player c) m := by
  unfold Lobby.create Lobby.act at hm ⊢
  split at hm
  next hsigned =>
    obtain ⟨r, hr, rfl⟩ := Hub.snapshot_of_create h.chronicle.sound hm
    rw [if_pos hsigned]
    exact ⟨r, .inr hr, rfl⟩
  next => cases hm

theorem honest_questBegin (h : w.Honest P) {k : Nat} {q : Quest} (hq : w.quests[k]? = some q) :
    (w.questBegin k q).Honest (Hub.With P (w.questBegin k q).service.hub) := by
  simp only [questBegin]
  split
  · refine (honest_modifyQuest h k ?_).with_now
    intro q' _ hcan
    refine ⟨hcan.caller, hcan.answer, ?_⟩
    intro room hroom
    exact absurd hroom Session.not_starting_of_begin
  · have acts := Lobby.acts_create w.service q.caller .autoMatching
    refine honest_modifyQuest (honest_note (honest_acts h acts) _ _) k ?_
    intro q' hq' hcan
    obtain rfl := Option.some.inj (hq.symm.trans hq')
    refine ⟨hcan.caller, ?_, ?_⟩
    · intro due creation m ha hm
      obtain ⟨-, rfl⟩ := Prod.ext_iff.1 (Option.some.inj ha)
      have hc := (h.quests q (List.mem_of_getElem? hq)).caller
      have hp : (w.service.create q.caller .autoMatching).1.player q.caller = w.player q.caller :=
        Lobby.player_stays (acts.handles_eq ▸ List.prefix_rfl) hc
      exact (congrArg (Shown _ · m) hp).mpr (shown_of_create h hm)
    · intro room hroom
      exact absurd hroom Session.not_starting_of_begin

theorem honest_questJoin (h : w.Honest P) {k : Nat} {q : Quest} (hq : w.quests[k]? = some q)
    (hs : w.questJoin? k q = some w') : w'.Honest P := by
  simp only [questJoin?, Option.bind_eq_bind, Option.bind_eq_some_iff] at hs
  obtain ⟨⟨due, creation⟩, ha, hs⟩ := hs
  simp only [Option.ite_none_right_eq_some] at hs
  obtain ⟨-, hs⟩ := hs
  obtain rfl := Option.some.inj hs
  have hshown : ∀ q' room, w.quests[k]? = some q' →
      SessionInput.answered creation.result = .answered (.ok room) →
      Shown P (w.player q'.caller) room := by
    intro q' room hq' heq
    obtain rfl := Option.some.inj (hq.symm.trans hq')
    exact (h.quests q (List.mem_of_getElem? hq)).answer due creation room ha
      (SessionInput.answered.inj heq)
  split
  · have left : { w with service := Matchmaker.signOut w.service q.caller }.Honest P :=
      h.aside rfl rfl (List.Subset.refl _) List.prefix_rfl rfl
    exact honest_tell left k hshown
  · exact honest_tell h k hshown

theorem honest_questStart (h : w.Honest P) {k : Nat} {q : Quest} (hq : w.quests[k]? = some q)
    {room : Match} (hr : q.session.stage = .starting room) : (w.questStart k q room).Honest P := by
  have hcan := h.quests q (List.mem_of_getElem? hq)
  have added := honest_addMember h hcan.caller q.probes q.session.side.role q.timing
  refine honest_modifyQuest (honest_tell_of_ne (honest_start added _ ?_) k (by simp)) k ?_
  · intro m hm
    obtain rfl := Option.some.inj (List.getElem?_concat_length.symm.trans hm)
    exact hcan.room room hr
  · intro q' _ hcan'
    exact ⟨hcan'.caller, hcan'.answer, hcan'.room⟩

theorem honest_questListen (h : w.Honest P) {k : Nat} {q : Quest}
    (hs : w.questListen? k q = some w') : w'.Honest P := by
  simp only [questListen?, Option.bind_eq_bind, Option.bind_eq_some_iff] at hs
  obtain ⟨i, -, m, -, hs⟩ := hs
  split at hs
  · obtain rfl := Option.some.inj hs
    exact honest_questSettle (honest_take h i) k i (by simp)
  · simp only [Option.ite_none_right_eq_some] at hs
    obtain ⟨-, hs⟩ := hs
    obtain rfl := Option.some.inj hs
    exact honest_questSettle h k i (by simp)

theorem honest_callCancel (h : w.Honest P) (c : Caller) (id : MatchId) :
    (w.callCancel c id).Honest (Hub.With P (w.callCancel c id).service.hub) :=
  honest_note (honest_acts h (Lobby.acts_cancel w.service c id)) _ _

theorem honest_callDismiss (h : w.Honest P) (c : Caller) (id : MatchId) :
    (w.callDismiss c id).Honest (Hub.With P (w.callDismiss c id).service.hub) :=
  honest_note (honest_acts h (Lobby.acts_dismiss w.service c id)) _ _

theorem honest_stepSession (h : w.Honest P) {k : Nat} (hs : w.stepSession? k = some w') :
    w'.Honest (Hub.With P w'.service.hub) := by
  simp only [stepSession?, Option.bind_eq_bind, Option.bind_eq_some_iff] at hs
  obtain ⟨q, hq, hs⟩ := hs
  split at hs
  next =>
    obtain rfl := Option.some.inj hs
    exact honest_questBegin h hq
  next => exact (honest_questJoin h hq hs).with_now
  next room hr =>
    obtain rfl := Option.some.inj hs
    exact (honest_questStart h hq hr).with_now
  next => exact (honest_questListen h hs).with_now
  next id _ _ =>
    obtain rfl := Option.some.inj hs
    exact honest_tell_of_ne (honest_callCancel h q.caller id) k (by simp)
  next id _ _ =>
    obtain rfl := Option.some.inj hs
    exact honest_tell_of_ne (honest_callDismiss h q.caller id) k (by simp)
  next => cases hs
  next => cases hs

/-! ## Everything that happens -/

theorem honest_addQuest (h : w.Honest P) {c : Caller} (hc : c < w.service.handles.length)
    (probes : ProbeScript) (timing : Timing) (side : Side) (maxAttempts : Option UInt32) :
    (w.addQuest { caller := c, probes, timing, session := { side, maxAttempts } }).2.Honest P := by
  refine h.same_hub
    (.of_subset (List.Subset.refl _) (List.Subset.refl _) List.prefix_rfl) rfl ?_ ?_
  · intro m hm
    exact .inl hm
  · intro q hq
    rcases List.mem_append.1 hq with hq | hq
    · exact .inl hq
    · obtain rfl := List.mem_singleton.1 hq
      refine .inr ⟨hc, ?_, ?_⟩
      · intro due creation m ha
        cases ha
      · intro m hm
        cases hm

theorem honest_abort (h : w.Honest P) (k : Nat) : (w.abort k).Honest P := by
  have aborted : ∀ {w : World Lobby}, w.Honest P → (w.modifyQuest k fun q =>
      { q with session := { q.session with stage := .aborted } }).Honest P := by
    intro w h
    refine honest_modifyQuest h k ?_
    intro q _ hcan
    refine ⟨hcan.caller, hcan.answer, ?_⟩
    intro m hm
    cases hm
  unfold abort
  split
  · exact h
  · split
    · exact h
    · split
      · exact aborted (honest_detach h _)
      · exact aborted h

theorem honest_step (h : w.Honest P) {words : List UInt64} {part : Part}
    (hs : w.step? words part = some w') : w'.Honest (Hub.With P w'.service.hub) := by
  cases part with
  | rendezvous i => exact (honest_stepRendezvous h hs).with_now
  | task i j => exact honest_stepTask h hs
  | dismissal k =>
    obtain ⟨⟨c, id⟩, -, rfl⟩ := Option.map_eq_some_iff.1 hs
    have fewer : { w with dismissals := w.dismissals.eraseIdx k }.Honest P :=
      h.aside rfl rfl (List.Subset.refl _) List.prefix_rfl rfl
    exact honest_callDismiss fewer c id
  | session k => exact honest_stepSession h hs

theorem honest_of_happening (h : w.Honest P) (hh : Happening P w w') :
    w'.Honest (Hub.With P w'.service.hub) := by
  have aside : ∀ {w' : World Lobby}, w'.members = w.members → w'.quests = w.quests →
      w'.log = w.log → w.service.handles <+: w'.service.handles →
      w'.service.hub = w.service.hub → w'.Honest (Hub.With P w'.service.hub) := by
    intro w' hm hq hl hs hub
    exact (h.aside hm hq (hl ▸ List.Subset.refl _) hs hub).with_now
  cases hh with
  | step hs => exact honest_step h hs
  | stepWithin hm hs => exact (honest_carryOut h hm hs).with_now
  | clock => exact aside rfl rfl rfl List.prefix_rfl rfl
  | connect => exact aside rfl rfl rfl (List.prefix_append _ _) rfl
  | clone name source =>
    obtain ⟨hs, hub⟩ := Lobby.cloneHandle_keeps w.service name source
    exact aside rfl rfl rfl hs hub
  | signIn => exact aside rfl rfl rfl List.prefix_rfl rfl
  | subscribe c => exact (honest_subscribe h c).with_now
  | create c request => exact honest_acts h (Lobby.acts_create _ _ _)
  | cancel c id => exact honest_callCancel h c id
  | dismiss c id => exact honest_callDismiss h c id
  | expire id => exact honest_perform h (a := .expire id) trivial rfl rfl rfl
  | remove id => exact honest_perform h (a := .remove id) trivial rfl rfl rfl
  | addMember probes role timing hc => exact (honest_addMember h hc probes role timing).with_now
  | addQuest probes timing side maxAttempts hc =>
    exact (honest_addQuest h hc probes timing side maxAttempts).with_now
  | @start i m r hm hr =>
    refine (honest_start h i ?_).with_now
    intro m' hm'
    obtain rfl := Option.some.inj (hm.symm.trans hm')
    exact ⟨r, hr, rfl⟩
  | detach i => exact (honest_detach h i).with_now
  | giveUp i => exact (honest_owner h i .giveUp).with_now
  | abort k => exact (honest_abort h k).with_now

theorem past_start : Past [{ service := {} }] = fun _ => False := by
  funext r
  simp [Past]

theorem past_cons (w : World Lobby) (ws : List (World Lobby)) :
    Past (w :: ws) = Hub.With (Past ws) w.service.hub := by
  funext r
  simp [Past, Hub.With, or_comm]

theorem honest_of_history {ws : List (World Lobby)} (h : History (w :: ws)) :
    w.Honest (Past (w :: ws)) := by
  generalize hl : w :: ws = l at h ⊢
  induction h generalizing w ws with
  | start =>
    obtain ⟨rfl, rfl⟩ := List.cons.inj hl
    rw [past_start]
    refine ⟨Hub.chronicle_empty, ?_, ?_, ?_⟩
    · intro r b hr
      exact hr.elim
    · intro m hm
      cases hm
    · intro q hq
      cases hq
  | next _ hh ih =>
    obtain ⟨rfl, rfl⟩ := List.cons.inj hl
    rw [past_cons]
    exact honest_of_happening (ih rfl) hh

end World

end TurnRendezvous
