/-
# `Agent.Trace` — what an agent tells its owner

An agent is silent, or it tells its owner how it ended, or it tells of its
success and later that the match went away.  A step says at most one thing
(`Rendezvous.Voice`), and it is the agent's mode that decides what may still
be said: `before` success, `watching` the match after it, and `ended`.

* `heard_of_moves`: what a move can tell the owner;
* `callbacks_in_order`: what a whole run can tell, and in which scene.
-/
import TurnRendezvous.Proofs.Agent.Standing

namespace TurnRendezvous

/-- The outcome that an output carries. -/
def Output.outcome? : Output → Option Outcome
  | .reported o => some o
  | .concluded o => some o
  | _ => none

namespace Rendezvous

/-! ## What a step says -/

/-- What a step says. -/
inductive Voice (r r' : Rendezvous) : Cause → List Output → Prop
  /-- Nothing, and there may be more to come. -/
  | quiet {cause : Cause} {out : List Output} :
      (∀ o ∈ out, o.outcome? = none) → r.phase ≠ .monitoring → r'.progress = .underway →
      r'.phase ≠ .monitoring → Voice r r' cause out
  /-- Nothing, because nobody listens. -/
  | left : r'.progress = .ended → Voice r r' (.notice .detach) []
  /-- Success, and the match is watched from now on. -/
  | stays {cause : Cause} {invite : Option String} :
      r.phase ≠ .monitoring → r'.progress = .underway → r'.phase = .monitoring →
      Voice r r' cause [.reported (.complete invite)]
  /-- The last outcome. -/
  | ends {cause : Cause} (out : List Output) {o : Outcome} :
      (∀ o ∈ out, o.outcome? = none) → r'.Over →
      (r.phase = .monitoring → o = .matchRemoved ∨ o = .fatalError .serviceClosed) →
      Voice r r' cause (out ++ [.concluded o])

theorem Over.of_settled {r : Rendezvous} {queue : List Notice} (h : r.Settled queue)
    (hp : r.progress = .ended) : r.Over :=
  h.resolve_right fun h => by simp [hp] at h

/-- What is played on a turn says nothing but that the match is invalid. -/
theorem outcome_of_played {r r' : Rendezvous} {m : Match} {position : Nat} {out : List Output}
    (h : r.Played m position r' out) {o : Output} (ho : o ∈ out) {outcome : Outcome}
    (hout : o.outcome? = some outcome) : outcome = .matchInvalid := by
  cases h with
  | refused =>
    obtain rfl := List.mem_singleton.1 ho
    exact (Option.some.inj hout).symm
  | handed =>
    obtain rfl := List.mem_singleton.1 ho
    cases hout

theorem voice_of_played {r r₀ r' : Rendezvous} {cause : Cause} {m : Match} {position : Nat}
    {queue : List Notice} {out : List Output} (h : r.Played m position r' out)
    (hs : r'.Settled queue) (hm : r₀.phase ≠ .monitoring) (hu : r.progress = .underway) :
    Voice r₀ r' cause out := by
  cases h with
  | refused => exact .ends [] (by simp) (.of_settled hs rfl) fun h => absurd h hm
  | handed => exact .quiet (by simp [Output.outcome?]) hm hu (by simp [submit])

theorem voice_cons {r r' : Rendezvous} {cause : Cause} {o : Output} {out : List Output}
    (ho : o.outcome? = none) (h : Voice r r' cause out) (hc : cause ≠ .notice .detach)
    (hm : r'.phase ≠ .monitoring) : Voice r r' cause (o :: out) := by
  cases h with
  | quiet h₁ h₂ h₃ h₄ => exact .quiet (List.forall_mem_cons.2 ⟨ho, h₁⟩) h₂ h₃ h₄
  | left => exact absurd rfl hc
  | stays _ _ h => exact absurd h hm
  | ends out h₁ h₂ h₃ => exact .ends (o :: out) (List.forall_mem_cons.2 ⟨ho, h₁⟩) h₂ h₃

/-- Every step says one of these. -/
theorem voice_of_passage {s : Surroundings} {r r' : Rendezvous} {cause : Cause}
    {queue : List Notice} {out : List Output} (h : r.Passage s cause r' out)
    (hs : r'.Settled queue) (hl : ∀ m position, cause = .look m position → r.phase ≠ .monitoring)
    (hu : ∀ n, cause = .notice n → r.progress = .underway) : Voice r r' cause out := by
  have last : ∀ {o : Outcome} {c : Cause}, r'.progress = .ended →
      (r.phase = .monitoring → o = .matchRemoved ∨ o = .fatalError .serviceClosed) →
      Voice r r' c [.concluded o] := fun he ho => .ends [] (by simp) (.of_settled hs he) ho
  cases h with
  | tooLate => exact last rfl fun _ => .inl rfl
  | firstTurn _ hp => exact voice_of_played hp hs (hl _ _ rfl) rfl
  | firstWait => exact .quiet (by simp) (hl _ _ rfl) rfl (by simp [awaitTurn, enter, watch])
  | detached => exact .left rfl
  | laterTurn hphase hp =>
    refine voice_cons rfl (voice_of_played hp hs (by simp [hphase]) (hu _ rfl)) (by simp) ?_
    cases hp with
    | refused => simp [leave, letGo]
    | handed => simp [submit]
  | waitEnded hphase => exact last rfl fun h => by simp [hphase] at h
  | turnRefused hphase => exact last rfl fun h => by simp [hphase] at h
  | passedOn hphase =>
    exact .quiet (by simp) (by simp [hphase]) (hu _ rfl) (by simp [awaitTurn, enter, watch])
  | succeeded hphase =>
    exact .ends [.dismissed] (by simp [Output.outcome?]) (.of_settled hs rfl)
      fun h => by simp [hphase] at h
  | stayed hphase => exact .stays (by simp [hphase]) (hu _ rfl) rfl
  | verifies hphase _ _ hrole =>
    exact .quiet (by simp) (by simp [hphase])
      (by simpa only [verify, hrole, watch, enter] using hu _ rfl)
      (by simp [verify, hrole, enter, watch])
  | reachable hphase =>
    refine .ends _ ?_ (.of_settled hs rfl) fun h => by simp [hphase] at h
    intro o ho
    split at ho
    · rw [List.mem_singleton.1 ho]
      rfl
    · simp at ho
  | unreachable hphase => exact last rfl fun h => by simp [hphase] at h
  | tooSlow hphase => exact last rfl fun h => by simp [hphase] at h
  | @gone how =>
    refine last rfl ?_
    intro _
    cases how with
    | removed => exact .inl rfl
    | ended => exact .inl rfl
    | serviceClosed => exact .inr rfl

end Rendezvous

namespace Agent

/-! ## What the owner hears of a step -/

/-- What the owner hears if an outcome is let out now. -/
def hears (a : Agent) (c : Callback) : List Callback := if a.gate.closed then [] else [c]

theorem emitAll_append (within : List OwnerCall) (id : MatchId) (out out' : List Output) :
    ∀ a : Agent, a.emitAll within id (out ++ out') =
      (((a.emitAll within id out).1.emitAll within id out').1,
        (a.emitAll within id out).2 ++ ((a.emitAll within id out).1.emitAll within id out').2) := by
  induction out with
  | nil => exact fun _ => rfl
  | cons o out ih => exact fun a => by simp only [List.cons_append, emitAll, ih, List.append_assoc]

/-- What carries no outcome passes the gate unheard. -/
theorem emitAll_quiet {within : List OwnerCall} {id : MatchId} {out : List Output} {a : Agent}
    (h : ∀ o ∈ out, o.outcome? = none) :
    (a.emitAll within id out).1 = a ∧
      (a.emitAll within id out).2.filterMap Mark.callback? = [] := by
  induction out with
  | nil => exact ⟨rfl, rfl⟩
  | cons o out ih =>
    obtain ⟨ho, h⟩ := List.forall_mem_cons.1 h
    have he : (a.emit within id o).1 = a ∧
        (a.emit within id o).2.filterMap Mark.callback? = [] := by
      cases o with
      | reported => simp [Output.outcome?] at ho
      | concluded => simp [Output.outcome?] at ho
      | _ => exact ⟨rfl, rfl⟩
    simp only [emitAll, he.1, List.filterMap_append, he.2, List.nil_append]
    exact ih h

theorem callbacks_emit_reported (within : List OwnerCall) (id : MatchId) (a : Agent)
    (o : Outcome) :
    (a.emit within id (.reported o)).2.filterMap Mark.callback? = a.hears ⟨⟨id, o⟩, false, a⟩ := by
  cases hc : a.gate.closed <;> simp [emit, output, hears, hc, Mark.ofEffect, Mark.callback?,
    Output.isFinal]

theorem callbacks_emit_concluded (within : List OwnerCall) (id : MatchId) (a : Agent)
    (o : Outcome) :
    (a.emit within id (.concluded o)).2.filterMap Mark.callback? =
      a.hears ⟨⟨id, o⟩, true, { a with gate := a.gate.close.2 }⟩ := by
  cases hc : a.gate.closed <;> simp [emit, output, hears, hc, Mark.ofEffect, Mark.callback?,
    Output.isFinal]

/-- Whatever the owner hears was put out, and is final if that was. -/
theorem put_out_of_callback {within : List OwnerCall} {id : MatchId} {out : List Output}
    {c : Callback} : ∀ {a : Agent}, c ∈ (a.emitAll within id out).2.filterMap Mark.callback? →
      ∃ o ∈ out, o.outcome? = some c.report.outcome ∧ o.isFinal = c.final := by
  induction out with
  | nil => simp [emitAll]
  | cons o out ih =>
    intro a hc
    simp only [emitAll, List.filterMap_append, List.mem_append] at hc
    rcases hc with hc | hc
    · refine ⟨o, List.mem_cons_self, ?_⟩
      cases o with
      | reported =>
        rw [callbacks_emit_reported, hears] at hc
        split at hc
        · simp at hc
        · rw [List.mem_singleton.1 hc]
          exact ⟨rfl, rfl⟩
      | concluded =>
        rw [callbacks_emit_concluded, hears] at hc
        split at hc
        · simp at hc
        · rw [List.mem_singleton.1 hc]
          exact ⟨rfl, rfl⟩
      | _ => simp [emit, output, Mark.ofEffect, Mark.callback?] at hc
    · obtain ⟨o, ho, hout⟩ := ih hc
      exact ⟨o, List.mem_cons_of_mem _ ho, hout⟩

theorem outcome_of_callback {within : List OwnerCall} {id : MatchId} {out : List Output}
    {c : Callback} {a : Agent} (hc : c ∈ (a.emitAll within id out).2.filterMap Mark.callback?) :
    ∃ o ∈ out, o.outcome? = some c.report.outcome := by
  obtain ⟨o, ho, hout, -⟩ := put_out_of_callback hc
  exact ⟨o, ho, hout⟩

/-- In a silenced agent the gate is closed, the rendezvous is finished and takes
no notice, and no task that comes to its end sends one. -/
structure Silenced (a : Agent) : Prop where
  gate : a.gate.closed = true
  phase : a.phase = .finished
  deaf : ∀ s, a.next? s = none
  dumb : ∀ i how, (a.complete i how).queue = a.queue

theorem silenced_of_over {a : Agent} {r : Rendezvous} (hr : a.rendezvous = some r) (ho : r.Over)
    (hg : a.gate.closed = true) : a.Silenced where
  gate := hg
  phase := by simp only [Agent.phase, hr, ho.phase]
  deaf s := by simp [next?, hr, ho.progress]
  dumb i how := by
    have hc := Registry.running_eq_nil_iff_complete.1 ho.silent i
    cases ht : a.task? i with
    | none => simp only [complete, hr, ht]
    | some t => simp only [complete, hr, ht, hc, Bool.false_eq_true, if_false]

/-! ## Modes -/

/-- How far an agent is in telling its owner. -/
inductive Mode
  | before | watching | ended
deriving DecidableEq

/-- The mode of a rendezvous. -/
def modeOf (r : Rendezvous) : Mode :=
  if r.progress = .ended then .ended else if r.phase = .monitoring then .watching else .before

/-- The mode of an agent. -/
def mode (a : Agent) : Mode :=
  match a.rendezvous with
  | none => .before
  | some r => modeOf r

theorem mode_of_some {a : Agent} {r : Rendezvous} (h : a.rendezvous = some r) :
    a.mode = modeOf r := by
  simp only [mode, h]

theorem SameWork.mode_eq {a b : Agent} (h : a.SameWork b) : b.mode = a.mode := by
  simp only [mode, h.rendezvous]

theorem mode_eq_over_iff {a : Agent} :
    a.mode = .ended ↔ ∃ r, a.rendezvous = some r ∧ r.progress = .ended := by
  cases hr : a.rendezvous with
  | none => simp [mode, hr]
  | some r =>
    by_cases hp : r.progress = .ended
    · simp [mode, hr, modeOf, hp]
    · by_cases hm : r.phase = .monitoring <;> simp [mode, hr, modeOf, hp, hm]

theorem finished_iff {a : Agent} (hst : a.Standing) : a.phase = .finished ↔ a.mode = .ended := by
  cases hst with
  | unstarted hr => simp [phase, mode, hr]
  | fresh hr _ hp hidle => simp [phase, mode_of_some hr, modeOf, hr, hp, hidle]
  | @driving r hr _ hp hd =>
    have hphase : r.phase ≠ .finished := fun hphase => by
      have hc := hd.course
      simp [Rendezvous.Course, hphase] at hc
    have hlive : a.mode ≠ .ended := fun hm => by
      simpa [hr, hp] using mode_eq_over_iff.1 hm
    simp [phase, hr, hphase, hlive]
  | ended hr _ ho => simp [phase, mode_of_some hr, modeOf, hr, ho.phase, ho.progress]

/-- An agent that watches its match has a role that has its peer not verified, and
does not dismiss. -/
theorem course_of_watching {a : Agent} (h : a.Standing) (hm : a.mode = .watching) :
    ∃ r, a.rendezvous = some r ∧ r.role.verifies = false ∧ r.dismisses = false := by
  cases h with
  | unstarted hr => simp [mode, hr] at hm
  | fresh hr _ hp hphase => simp [mode, hr, modeOf, hp, hphase] at hm
  | @driving r hr _ hp hd =>
    have hphase : r.phase = .monitoring := by
      by_cases h : r.phase = .monitoring
      · exact h
      · simp [mode, hr, modeOf, hp, h] at hm
    have hc := hd.course
    simp only [Rendezvous.Course, hphase] at hc
    exact ⟨r, hr, hc⟩
  | ended hr _ ho => simp [mode, hr, modeOf, ho.progress] at hm

/-- What an agent hears in a move from `a` to `b`. -/
inductive Heard (a b : Agent) : List Callback → Prop
  | nothing : b.mode = a.mode → Heard a b []
  | left : .detach ∈ a.queue → a.mode ≠ .ended → b.mode = .ended → Heard a b []
  | success {c : Callback} {invite : Option String} :
      a.mode = .before → b.mode = .watching → c.report.outcome = .complete invite →
      c.final = false → (∃ r, b.rendezvous = some r ∧ c.report.matchId = r.matchId) →
      Heard a b (a.hears c)
  | last {c : Callback} :
      a.mode ≠ .ended → b.mode = .ended → c.final = true → c.scene.Silenced →
      (a.mode = .watching →
        c.report.outcome = .matchRemoved ∨ c.report.outcome = .fatalError .serviceClosed) →
      (∃ r, b.rendezvous = some r ∧ c.report.matchId = r.matchId) →
      Heard a b (a.hears c)

theorem mem_hears {a : Agent} {c c' : Callback} (h : c' ∈ a.hears c) : c' = c := by
  simp only [hears] at h
  split at h
  · simp at h
  · exact List.mem_singleton.1 h

/-- What a stride says, seen from the agent. -/
theorem voice_of_stride {a a' : Agent} {s : Surroundings} {r' : Rendezvous} {out : List Output}
    (h : a.Stride s a' r' out) :
    ∃ (r : Rendezvous) (cause : Rendezvous.Cause),
      a.mode = (if r.phase = .monitoring then .watching else .before) ∧ r.Voice r' cause out ∧
      a'.gate = a.gate ∧ (cause = .notice .detach → .detach ∈ a.queue) := by
  cases h with
  | @first r _ m position _ hr _ hp hphase _ _ hpass hset =>
    refine ⟨r, .look m position, by simp [mode_of_some hr, modeOf, hp], ?_, rfl, by simp⟩
    exact Rendezvous.voice_of_passage hpass hset (fun _ _ _ => by rw [hphase]; decide)
      (fun _ h => by cases h)
  | @later r _ n queue _ hr _ hp hq _ hpass hset =>
    refine ⟨r, .notice n, by simp [mode_of_some hr, modeOf, hp], ?_, rfl, ?_⟩
    · exact Rendezvous.voice_of_passage hpass hset (fun _ _ h => by simp at h) (fun _ _ => hp)
    · intro h
      rw [hq, Rendezvous.Cause.notice.inj h]
      exact List.mem_cons_self

theorem mode_ne_over_of_stride {a a' : Agent} {s : Surroundings} {r' : Rendezvous}
    {out : List Output} (h : a.Stride s a' r' out) : a.mode ≠ .ended := by
  obtain ⟨r, cause, hmode, -⟩ := voice_of_stride h
  rw [hmode]
  split <;> simp

theorem heard_of_stride {a a' : Agent} {s : Surroundings} {r' : Rendezvous} {out : List Output}
    (h : a.Stride s a' r' out) (within : List OwnerCall) :
    Heard a (a'.absorbWithin within (r', out)).1
      ((a'.absorbWithin within (r', out)).2.filterMap Mark.callback?) := by
  obtain ⟨r, cause, hmode, hv, hgate, hdetach⟩ := voice_of_stride h
  have hb := sameWork_absorbWithin within a' r' out
  have hmode' := hb.mode_eq.trans (mode_of_some rfl)
  have hne := mode_ne_over_of_stride h
  cases hv with
  | quiet hq hm hu hm' =>
    rw [absorbWithin, (emitAll_quiet hq).2]
    refine .nothing (hmode'.trans ?_)
    rw [hmode, if_neg hm]
    simp [modeOf, hu, hm']
  | left hp => exact .left (hdetach rfl) hne (hmode'.trans (by simp [modeOf, hp]))
  | @stays _ invite hm hu hm' =>
    have hcs : (a'.absorbWithin within (r', [.reported (.complete invite)])).2.filterMap
          Mark.callback? =
        a.hears ⟨⟨r'.matchId, .complete invite⟩, false, { a' with rendezvous := some r' }⟩ := by
      simp only [absorbWithin, emitAll, List.append_nil, callbacks_emit_reported, hears, hgate]
    rw [hcs]
    exact .success (by rw [hmode, if_neg hm]) (hmode'.trans (by simp [modeOf, hu, hm'])) rfl rfl
      ⟨r', hb.rendezvous, rfl⟩
  | @ends _ out o hq ho hgone =>
    have hcs : (a'.absorbWithin within (r', out ++ [.concluded o])).2.filterMap Mark.callback? =
        a.hears
          ⟨⟨r'.matchId, o⟩, true, { a' with rendezvous := some r', gate := a'.gate.close.2 }⟩ := by
      simp only [absorbWithin, emitAll_append, List.filterMap_append, (emitAll_quiet hq).1,
        (emitAll_quiet hq).2, emitAll, List.append_nil, List.nil_append, callbacks_emit_concluded,
        hears, hgate]
    rw [hcs]
    refine .last hne (hmode'.trans (by simp [modeOf, ho.progress])) rfl
      (silenced_of_over rfl ho rfl) (fun hw => hgone ?_) ⟨r', hb.rendezvous, rfl⟩
    rw [hmode] at hw
    split at hw
    · assumption
    · cases hw

/-- What the owner hears in a move. -/
theorem heard_of_moves {a b : Agent} {mv : Move} {marks : List Mark} (h : a.Standing)
    (hm : a.Moves mv marks b) : Heard a b (marks.filterMap Mark.callback?) := by
  cases hm with
  | start hs =>
    obtain ⟨hr, -, role, -, rfl⟩ := start_of_standing h hs
    exact .nothing (by simp [mode, hr, modeOf])
  | owner c => exact .nothing (sameWork_call a c).mode_eq
  | step hs =>
    obtain ⟨a', r', out, hstride, hb⟩ := stride_of_stepWithin? h hs
    obtain ⟨rfl, rfl⟩ := Prod.ext_iff.1 hb
    exact heard_of_stride hstride _
  | goOn ht =>
    obtain ⟨r, j, hr, -, -, -⟩ := exists_of_task? ht
    exact .nothing (by simp [mode, progress, hr, modeOf])
  | finish ht =>
    obtain ⟨r, j, hr, -, -, -⟩ := exists_of_task? ht
    exact .nothing (by simp [mode, complete, hr, ht, modeOf])

/-! ## Runs -/

/-- When a success leaves more to come: the match is not dismissed, and the peer
is not verified. -/
def Stays (role : Role) (timing : Timing) : Prop :=
  timing.dismissOnFinish.getD role.leavesByDefault = false ∧ role.verifies = false

/-- What an agent tells its owner, from beginning to end. -/
inductive Trace (role : Role) (timing : Timing) : List Callback → Prop
  | silent : Trace role timing []
  /-- The last outcome, whichever it is. -/
  | told {c : Callback} : c.final = true → Trace role timing [c]
  /-- Success. -/
  | success {c : Callback} {invite : Option String} :
      c.final = false → c.report.outcome = .complete invite → Stays role timing →
      Trace role timing [c]
  /-- Success, and later the end of the match or of the service. -/
  | gone {c c' : Callback} {invite : Option String} :
      c.final = false → c.report.outcome = .complete invite → Stays role timing →
      c'.final = true →
      c'.report.outcome = .matchRemoved ∨ c'.report.outcome = .fatalError .serviceClosed →
      Trace role timing [c, c']

/-- What holds of the callbacks so far. -/
structure Telling (role : Role) (timing : Timing) (t : List Stage) (a : Agent) : Prop where
  trace : Trace role timing (callbacks t)
  before : a.mode = .before → callbacks t = []
  watching : a.mode = .watching → ∀ c ∈ callbacks t, c.final = false
  ids : ∀ c ∈ callbacks t, ∃ r, a.rendezvous = some r ∧ c.report.matchId = r.matchId
  scenes : ∀ c ∈ callbacks t, c.final = true → c.scene.Silenced

theorem stays_of_watching {role : Role} {timing : Timing} {t : List Stage} {a : Agent}
    (h : a.Standing) (ha : Aimed role timing t a) (hm : a.mode = .watching) :
    Stays role timing := by
  obtain ⟨r, hr, hv, hd⟩ := course_of_watching h hm
  obtain ⟨-, -, hdis, hblank⟩ := ha.started r hr
  refine ⟨hdis.symm.trans hd, ?_⟩
  rw [← Role.verifies_blank, ← hblank, Role.verifies_blank, hv]

/-- What comes last may come. -/
theorem trace_snoc {role : Role} {timing : Timing} {cs : List Callback} {c : Callback}
    (h : Trace role timing cs) (hcs : ∀ c ∈ cs, c.final = false) (hc : c.final = true)
    (hgone : cs ≠ [] →
      c.report.outcome = .matchRemoved ∨ c.report.outcome = .fatalError .serviceClosed) :
    Trace role timing (cs ++ [c]) := by
  cases h with
  | silent => exact .told hc
  | told h => simp [h] at hcs
  | success h₁ h₂ h₃ => exact .gone h₁ h₂ h₃ hc (hgone (by simp))
  | gone _ _ _ h => simp [h] at hcs

theorem telling_of_heard {role : Role} {timing : Timing} {t : List Stage} {a b : Agent} {mv : Move}
    {marks : List Mark} (ht : Telling role timing t a)
    (hh : Heard a b (marks.filterMap Mark.callback?))
    (hs : b.mode = .watching → Stays role timing)
    (hids : ∀ r, a.rendezvous = some r → ∃ r', b.rendezvous = some r' ∧ r'.matchId = r.matchId) :
    Telling role timing (t ++ [⟨a, mv, marks, b⟩]) b := by
  have old : ∀ c ∈ callbacks t, ∃ r, b.rendezvous = some r ∧ c.report.matchId = r.matchId := by
    intro c hc
    obtain ⟨r, hr, hid⟩ := ht.ids c hc
    obtain ⟨r', hr', hid'⟩ := hids r hr
    exact ⟨r', hr', hid.trans hid'.symm⟩
  generalize hm : marks.filterMap Mark.callback? = cs at hh
  have hcs : callbacks (t ++ [⟨a, mv, marks, b⟩]) = callbacks t ++ cs := by simp [hm]
  constructor <;> rw [hcs]
  · cases hh with
    | nothing => simpa using ht.trace
    | left => simpa using ht.trace
    | success h₁ h₂ h₃ h₄ =>
      rw [ht.before h₁, hears]
      split
      · exact .silent
      · exact .success h₄ h₃ (hs h₂)
    | last h₁ h₂ h₃ _ h₄ =>
      rw [hears]
      split
      · simpa using ht.trace
      · cases hmode : a.mode with
        | before =>
          rw [ht.before hmode]
          exact .told h₃
        | watching => exact trace_snoc ht.trace (ht.watching hmode) h₃ fun _ => h₄ hmode
        | ended => exact absurd hmode h₁
  · intro hb
    cases hh with
    | nothing h => simpa using ht.before (h ▸ hb)
    | left _ _ h => simp [hb] at h
    | success _ h => simp [hb] at h
    | last _ h => simp [hb] at h
  · intro hb
    cases hh with
    | nothing h => simpa using ht.watching (h ▸ hb)
    | left _ _ h => simp [hb] at h
    | success h₁ _ _ h₄ =>
      rw [ht.before h₁]
      intro c hc
      rw [mem_hears hc, h₄]
    | last _ h => simp [hb] at h
  · refine List.forall_mem_append.2 ⟨old, ?_⟩
    intro c hc
    cases hh with
    | nothing => simp at hc
    | left => simp at hc
    | success _ _ _ _ h => exact mem_hears hc ▸ h
    | last _ _ _ _ _ h => exact mem_hears hc ▸ h
  · refine List.forall_mem_append.2 ⟨ht.scenes, ?_⟩
    intro c hc hfin
    cases hh with
    | nothing => simp at hc
    | left => simp at hc
    | success _ _ _ h => simp [mem_hears hc, h] at hfin
    | last _ _ _ h => exact mem_hears hc ▸ h

theorem Run.telling {role : Role} {timing : Timing} {t : List Stage} {b : Agent}
    (h : Run (ofRole role timing) t b) : Telling role timing t b := by
  induction h with
  | nil =>
    exact ⟨.silent, fun _ => rfl, fun _ => List.forall_mem_nil _, List.forall_mem_nil _,
      List.forall_mem_nil _⟩
  | @snoc t b c mv marks hrun hm ih =>
    obtain ⟨hst, haim⟩ := hrun.aimed
    obtain ⟨hst', haim'⟩ := (hrun.snoc hm).aimed
    refine telling_of_heard ih (heard_of_moves hst hm) (stays_of_watching hst' haim') ?_
    intro r hr
    obtain ⟨r', hr', haim⟩ := heir_of_moves hst hm hr
    exact ⟨r', hr', haim.matchId⟩

/-! ## Owners that do not let go -/

/-- What holds of an agent that its owner never let go of. -/
structure Attended (t : List Stage) (a : Agent) : Prop where
  queue : Notice.detach ∉ a.queue
  gate : a.mode ≠ .ended → a.gate.closed = false
  told : a.mode = .ended → ∃ c ∈ callbacks t, c.final = true

/-- What a step does to the queue and the gate if the owner does not let go in it. -/
theorem kept_of_stride {a a' : Agent} {s : Surroundings} {r' : Rendezvous} {out : List Output}
    {within : List OwnerCall} (h : a.Stride s a' r' out)
    (hl : within = [] ∨ ∀ m ∈ (a'.absorbWithin within (r', out)).2, m.callback? = none) :
    (a'.absorbWithin within (r', out)).1.queue = a'.queue ∧
      (r'.progress ≠ .ended → (a'.absorbWithin within (r', out)).1.gate = a.gate) := by
  obtain ⟨r, cause, -, hv, hgate, -⟩ := voice_of_stride h
  have he := fst_emitAll (a := { a' with rendezvous := some r' }) hl
  constructor
  · simp only [absorbWithin, he]
  · intro hp
    simp only [absorbWithin, if_neg hp]
    cases hv with
    | quiet hq => rw [(emitAll_quiet hq).1, hgate]
    | left hend => exact absurd hend hp
    | stays =>
      rw [he]
      exact hgate
    | ends _ _ ho => exact absurd ho.progress hp

theorem attended_of_stride {a a' : Agent} {t : List Stage} {s : Surroundings} {r' : Rendezvous}
    {out : List Output} {within : List OwnerCall} (ha : Attended t a) (h : a.Stride s a' r' out)
    (hl : within = [] ∨ ∀ m ∈ (a'.absorbWithin within (r', out)).2, m.callback? = none) :
    Attended
      (t ++ [⟨a, .step s within, (a'.absorbWithin within (r', out)).2,
        (a'.absorbWithin within (r', out)).1⟩])
      (a'.absorbWithin within (r', out)).1 := by
  obtain ⟨hqueue, hgate⟩ := kept_of_stride h hl
  have hmode := (sameWork_absorbWithin within a' r' out).mode_eq.trans (mode_of_some rfl)
  refine ⟨?_, ?_, ?_⟩
  · rw [hqueue]
    cases h with
    | first => exact ha.queue
    | later _ _ _ hq => exact fun hd => ha.queue (hq ▸ List.mem_cons_of_mem _ hd)
  · intro hb
    rw [hgate fun hp => hb (hmode.trans (by simp [modeOf, hp]))]
    exact ha.gate (mode_ne_over_of_stride h)
  · intro hb
    have hh := heard_of_stride h within
    simp only [callbacks_snoc, List.mem_append]
    generalize List.filterMap Mark.callback? (a'.absorbWithin within (r', out)).2 = cs at hh
    cases hh with
    | nothing h =>
      obtain ⟨c, hc, hf⟩ := ha.told (h ▸ hb)
      exact ⟨c, .inl hc, hf⟩
    | left h => exact absurd h ha.queue
    | success _ h => simp [hb] at h
    | @last c h₁ _ h₃ =>
      exact ⟨c, .inr (by simp [hears, ha.gate h₁]), h₃⟩

theorem attended_snoc {t : List Stage} {a b : Agent} {mv : Move} {marks : List Mark}
    (h : a.Standing) (ha : Attended t a) (hm : a.Moves mv marks b)
    (hl : Stage.letsGo ⟨a, mv, marks, b⟩ = false) : Attended (t ++ [⟨a, mv, marks, b⟩]) b := by
  have same : ∀ {mv : Move} {b : Agent}, b.gate = a.gate → .detach ∉ b.queue → b.mode = a.mode →
      Attended (t ++ [⟨a, mv, [], b⟩]) b := by
    intro mv b hg hq hm
    refine ⟨hq, fun h => hg ▸ ha.gate (hm ▸ h), ?_⟩
    intro h
    simpa using ha.told (hm ▸ h)
  cases hm with
  | start hs =>
    obtain ⟨hr, -, role, -, rfl⟩ := start_of_standing h hs
    exact same rfl ha.queue (by simp [mode, hr, modeOf])
  | owner c => simp [Stage.letsGo] at hl
  | @step _ _ s within hs =>
    obtain ⟨a', r', out, hstride, hb⟩ := stride_of_stepWithin? h hs
    obtain ⟨rfl, rfl⟩ := Prod.ext_iff.1 hb
    refine attended_of_stride ha hstride ?_
    by_cases hw : within = []
    · exact .inl hw
    · exact .inr (by simpa [Stage.letsGo, hw] using hl)
  | goOn ht =>
    obtain ⟨r, j, hr, -, -, -⟩ := exists_of_task? ht
    exact same rfl ha.queue (by simp [mode, progress, hr, modeOf])
  | @finish i task how ht =>
    obtain ⟨r, j, hr, -, -, -⟩ := exists_of_task? ht
    refine same (by simp [complete, hr, ht]) ?_ (by simp [mode, complete, hr, ht, modeOf])
    have hq := ha.queue
    simp only [complete, hr, ht]
    split
    · simp [hq]
    · exact hq

theorem Run.attended {role : Role} {timing : Timing} {t : List Stage} {b : Agent}
    (h : Run (ofRole role timing) t b) (hl : ∀ st ∈ t, st.letsGo = false) : Attended t b := by
  induction h with
  | nil => exact ⟨by simp [ofRole], fun _ => rfl, fun h => by cases h⟩
  | snoc hrun hm ih =>
    obtain ⟨hl, hlast⟩ := List.forall_mem_append.1 hl
    exact attended_snoc hrun.aimed.1 (ih hl) hm (hlast _ (List.mem_singleton_self _))

/-- Whatever the service, the peers and the owner do, an agent is silent, tells its
owner one outcome, or tells of a success and later of the end, the latter only
if the match is neither dismissed nor the peer verified.  All of it is about the
one match that the agent was started on, and in the scene of a last outcome the
gate is closed, the rendezvous is finished and nothing of it delivers any more.
If the owner never lets go, the rendezvous does not end without a last outcome. -/
theorem callbacks_in_order {role : Role} {timing : Timing} {t : List Stage} {b : Agent}
    (h : Run (ofRole role timing) t b) :
    Trace role timing (callbacks t) ∧
      (startedOn t).length ≤ 1 ∧ (∀ c ∈ callbacks t, startedOn t = [c.report.matchId]) ∧
      (∀ c ∈ callbacks t, c.final = true → c.scene.Silenced) ∧
      ((∀ st ∈ t, st.letsGo = false) → (∃ r, b.rendezvous = some r ∧ r.progress = .ended) →
        ∃ cs c, callbacks t = cs ++ [c] ∧ c.final = true ∧ ∀ c' ∈ cs, c'.final = false) := by
  have ht := h.telling
  have haim := h.aimed.2
  refine ⟨ht.trace, ?_, ?_, ht.scenes, ?_⟩
  · cases hr : b.rendezvous with
    | none => simp [(haim.unstarted hr).2.2]
    | some r => simp [(haim.started r hr).1]
  · intro c hc
    obtain ⟨r, hr, hid⟩ := ht.ids c hc
    rw [(haim.started r hr).1, hid]
  · intro hl hp
    obtain ⟨c, hc, hf⟩ := (h.attended hl).told (mode_eq_over_iff.2 hp)
    have htr := ht.trace
    generalize callbacks t = cs at hc htr
    cases htr with
    | silent => simp at hc
    | @told c' h => exact ⟨[], c', rfl, h, by simp⟩
    | success h => simp_all
    | @gone c₁ c₂ _ h₁ _ _ h₂ => exact ⟨[c₁], c₂, rfl, h₂, by simpa using h₁⟩

/-- A host that publishes its invite and sees its match go away. -/
theorem callbacks_in_order_of_a_host :
    ∃ t b, Run (ofRole (.host "here") {}) t b ∧ Trace (.host "here") {} (callbacks t) ∧
      (callbacks t).map (·.report.outcome) = [.complete none, .matchRemoved] ∧
      ∃ cs c, callbacks t = cs ++ [c] ∧ c.final = true := by
  let m : Match :=
    { id := ⟨"m"⟩, status := .active, turn := .mine, participants := [⟨"ann"⟩, ⟨"bob"⟩]
      creator := ⟨"ann"⟩, viewer := ⟨"ann"⟩, data := none, version := 0 }
  let news : Feed MatchNews := { capacity := 64, sent := [.removed ⟨"m"⟩] }
  let s : Surroundings := { now := 0, position := 0 }
  have started := Run.nil.snoc (.start (a := ofRole (.host "here") {}) (s := true)
    (m := m) (n := 0) rfl)
  have played := started.snoc (.step (s := s) (w := []) rfl)
  have issued := played.snoc (.goOn (i := 0) rfl rfl)
  have answered := issued.snoc (.finish (i := 0) (e := .submitted (.ok ())) rfl rfl)
  have reported := answered.snoc (.step (s := s) (w := []) rfl)
  have seen := reported.snoc (.finish (i := 1) (e := .ended .removed) rfl ⟨news, rfl⟩)
  have run := seen.snoc (.step (s := s) (w := []) rfl)
  obtain ⟨htr, -, -, -, hlast⟩ := callbacks_in_order run
  obtain ⟨cs, c, hcs, hc, -⟩ := hlast (by decide) ⟨_, rfl, rfl⟩
  exact ⟨_, _, run, htr, rfl, cs, c, hcs, hc⟩

end Agent

end TurnRendezvous
