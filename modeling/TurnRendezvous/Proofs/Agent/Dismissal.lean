/-
# `Agent.dismissals` — which matches an agent throws away

A match is dismissed in two places, after the turn that was accepted last and after the probe
that was answered, and whether it is depends on the role, on what is configured and on what
comes next.  Together this comes to one rule: an agent that nobody lets go of dismisses its
match just when it tells of a success and is to dismiss it, in the same step.

Before that the service has accepted a turn with an invite, and a peer that was to be verified
has answered the probe.  A success of an agent that is to stay is followed by the watch for
the end of the match, and by nothing else until that ends.

* `success_of_passage`: what a step says and dismisses when it succeeds;
* `rewarded_of_moves`: the same of a move of an agent;
* `Run.balanced`: the dismissals of a run against what it tells the owner;
* `dismissed_iff_complete`: all of this about runs;
* `dismissals_of_stepRendezvous?`: a world carries out what an agent dismisses.
-/
import TurnRendezvous.Proofs.Agent.Accepted
import TurnRendezvous.Proofs.Agent.Tended
import TurnRendezvous.Proofs.World.Deeds

namespace TurnRendezvous

/-- The match that an output of a rendezvous about `id` dismisses. -/
def Output.dismissed? (id : MatchId) : Output → Option MatchId
  | .dismissed => some id
  | _ => none

/-- Whether an agent dismisses its match after a success: as it is told, and if it is told
nothing, unless it is the host. -/
def Timing.dismisses (timing : Timing) (role : Role) : Bool :=
  timing.dismissOnFinish.getD !role.isHost

theorem Timing.dismisses_eq (timing : Timing) (role : Role) :
    timing.dismisses role = timing.dismissOnFinish.getD role.leavesByDefault := by
  cases role <;> rfl

namespace Rendezvous

/-! ## Steps -/

/-- What a step does about success. -/
inductive Success (r r' : Rendezvous) : Cause → List Output → Prop
  | none {cause : Cause} {out : List Output} :
      (∀ id, out.filterMap (Output.dismissed? id) = []) →
      (∀ o ∈ out, ∀ invite, o.outcome? ≠ some (.complete invite)) → Success r r' cause out
  /-- Success is the last outcome. -/
  | last {n : Notice} {invite : Option String} :
      r.Earned n invite → (r.dismisses = false → r.role.verifies = true) → r'.progress = .ended →
      Success r r' (.notice n)
        ((if r.dismisses then [.dismissed] else []) ++ [.concluded (.complete invite)])
  /-- There is more to come. -/
  | stays {n : Notice} {invite : Option String} :
      r.Earned n invite → r.dismisses = false → r'.phase = .monitoring →
      Success r r' (.notice n) [.reported (.complete invite)]

/-- A turn is no success yet. -/
theorem quiet_of_played {r r' : Rendezvous} {m : Match} {position : Nat} {out : List Output}
    (h : r.Played m position r' out) :
    (∀ id, out.filterMap (Output.dismissed? id) = []) ∧
      ∀ o ∈ out, ∀ invite, o.outcome? ≠ some (.complete invite) := by
  constructor
  · intro id
    cases h <;> rfl
  · intro o ho invite hc
    cases outcome_of_played h ho hc

theorem success_of_passage {s : Surroundings} {r r' : Rendezvous} {cause : Cause}
    {out : List Output} (h : r.Passage s cause r' out)
    (hv : r.phase = .verifying → r.role.verifies = true) : Success r r' cause out := by
  cases h with
  | firstTurn _ hp =>
    obtain ⟨hd, ho⟩ := quiet_of_played hp
    exact .none hd ho
  | laterTurn _ hp =>
    obtain ⟨hd, ho⟩ := quiet_of_played hp
    exact .none hd (List.forall_mem_cons.2 ⟨by simp [Output.outcome?], ho⟩)
  | succeeded hphase hpend hsignal hrole hdis =>
    have hlast : Success r { r with submission := Option.none, pending := Option.none }.leave _ _ :=
      .last (.accepted hphase hpend hsignal hrole) (fun h => by simp [hdis] at h) rfl
    rwa [if_pos hdis] at hlast
  | stayed hphase hpend hsignal hrole hdis =>
    exact .stays (.accepted hphase hpend hsignal hrole) hdis rfl
  | @reachable answer text hphase hans hprobed =>
    obtain rfl : answer = .reachable := by
      cases answer <;> simp_all [ProbeAnswer.isReachable]
    exact .last (.found hphase hprobed) (fun _ => hv hphase) rfl
  | @waitEnded result o _ ho =>
    refine .none (fun _ => rfl) ?_
    cases result <;> cases ho <;> simp [Output.outcome?]
  | @gone how =>
    refine .none (fun _ => rfl) ?_
    cases how <;> simp [Output.outcome?, Departure.outcome]
  | _ => exact .none (fun _ => rfl) (by simp [Output.outcome?])

/-! ## Watches for the end -/

/-- The matches whose end was ever watched for. -/
def endings (r : Rendezvous) : List MatchId := r.jobs.jobs.filterMap (·.work.work.ending?)

/-- A step watches for the end of no other match than its own. -/
theorem endings_of_passage {s : Surroundings} {r r' : Rendezvous} {cause : Cause}
    {out : List Output} (h : r.Passage s cause r' out) :
    ∀ id ∈ r'.endings, id ∈ r.endings ∨ id = r.matchId := by
  have left : ∀ {q : Rendezvous}, q.jobs = r.jobs → ∀ id ∈ q.leave.endings,
      id ∈ r.endings ∨ id = r.matchId := by
    intro q hq id hid
    rw [endings, filterMap_leave (·.work.ending?) q, hq] at hid
    exact .inl hid
  have started : ∀ ts : List Task, r'.jobs.jobs = r.jobs.jobs ++ ts.map (fun t => { work := t }) →
      (∀ t ∈ ts, ∀ id, t.work.ending? = some id → id = r.matchId) →
      ∀ id ∈ r'.endings, id ∈ r.endings ∨ id = r.matchId := by
    intro ts hjobs hts id hid
    rw [endings, hjobs, List.filterMap_append, List.mem_append] at hid
    refine hid.imp_right fun hid => ?_
    obtain ⟨j, hj, hjid⟩ := List.mem_filterMap.1 hid
    obtain ⟨t, ht, rfl⟩ := List.mem_map.1 hj
    exact hts t ht id hjid
  cases h with
  | firstTurn _ hp =>
    cases hp with
    | refused => exact left rfl
    | @handed d =>
      exact started [⟨r.generation + 1, .submit d.data.encode _ false⟩] rfl
        (by simp [Work.ending?])
  | laterTurn _ hp =>
    cases hp with
    | refused => exact left rfl
    | @handed d =>
      exact started [⟨r.generation + 1, .submit d.data.encode _ false⟩] rfl
        (by simp [Work.ending?])
  | firstWait => exact started [_] rfl (by simp [Work.ending?])
  | passedOn => exact started [_] rfl (by simp [Work.ending?])
  | stayed => exact started [_] rfl (by simp [Work.ending?])
  | @verifies p localId text _ _ _ hrole =>
    refine started [⟨r.generation + 1, .probe text localId none⟩,
      ⟨r.generation + 1, .timer (s.now + r.timing.probeTimeout.nanos)⟩] ?_ (by simp [Work.ending?])
    simp [verify, hrole, watch, enter, Registry.spawn]
  | _ => exact left rfl

theorem endings_progress {r : Rendezvous} {i : JobId} {j : Job Task} (hj : r.jobs.get? i = some j)
    {work : Work} (hb : j.work.work.MayBecome work) :
    (r.withJobs (r.jobs.modify i (·.progress ({ · with work })))).endings = r.endings :=
  filterMap_progress hj hb.ending?_eq

theorem endings_complete (r : Rendezvous) (i : JobId) :
    (r.withJobs (r.jobs.complete i).2).endings = r.endings :=
  Registry.filterMap_modify r.jobs i fun j _ => by simp

end Rendezvous

namespace Agent

/-! ## Stages -/

/-- The match that a mark dismisses, if the rendezvous is about `id?`. -/
def Mark.dismissed? (id? : Option MatchId) : Mark → Option MatchId
  | .dismissed => id?
  | _ => none

/-- The matches that a stage dismisses: that of its rendezvous. -/
def Stage.dismissals (st : Stage) : List MatchId :=
  st.marks.filterMap (Mark.dismissed? (st.before.rendezvous.map (·.matchId)))

/-- The matches that were dismissed in a run, oldest first. -/
def dismissals (t : List Stage) : List MatchId := t.flatMap Stage.dismissals

@[simp] theorem dismissals_snoc (t : List Stage) (st : Stage) :
    dismissals (t ++ [st]) = dismissals t ++ st.dismissals := by
  simp [dismissals]

/-- Whether the owner is told of a success in a stage. -/
def Stage.succeeds (st : Stage) : Bool :=
  (st.marks.filterMap Mark.callback?).any (·.report.isComplete)

theorem isComplete_iff {c : Callback} :
    c.report.isComplete = true ↔ ∃ invite, c.report.outcome = .complete invite := by
  cases h : c.report.outcome <;> simp [Report.isComplete, h]

/-- A success that is put out while the gate is open is told. -/
theorem any_of_success {o : Output} {invite : Option String}
    (ho : o.outcome? = some (.complete invite)) {quiet : List Output}
    (hq : ∀ o ∈ quiet, o.outcome? = none) (within : List OwnerCall) (id : MatchId) {a : Agent}
    (hg : a.gate.closed = false) :
    ((a.emitAll within id (quiet ++ [o])).2.filterMap Mark.callback?).any
      (·.report.isComplete) = true := by
  simp only [emitAll_append, List.filterMap_append, (emitAll_quiet hq).1, (emitAll_quiet hq).2,
    emitAll, List.append_nil, List.nil_append]
  cases o with
  | reported x =>
    obtain rfl := Option.some.inj ho
    simp [callbacks_emit_reported, hears, hg, Report.isComplete]
  | concluded x =>
    obtain rfl := Option.some.inj ho
    simp [callbacks_emit_concluded, hears, hg, Report.isComplete]
  | _ => cases ho

/-- What a stage does about success. -/
inductive Rewarded (st : Stage) : Prop
  | none : st.dismissals = [] → st.succeeds = false → Rewarded st
  | success {r : Rendezvous} {n : Notice} {invite : Option String} :
      st.before.rendezvous = some r → r.progress = .underway → r.OnDuty st.before.queue →
      st.before.mode = .before → st.handles? = some n → r.Earned n invite →
      st.dismissals = (if r.dismisses then [r.matchId] else []) →
      st.after.mode ≠ .before → (st.before.gate.closed = false → st.succeeds = true) →
      (r.dismisses = false → r.role.verifies = false → st.after.phase = .monitoring) →
      Rewarded st

theorem rewarded_of_stride {st : Stage} {a' : Agent} {s : Surroundings} {r' : Rendezvous}
    {out : List Output} {within : List OwnerCall} (h : st.before.Stride s a' r' out)
    (hmove : st.move = .step s within)
    (hb : a'.absorbWithin within (r', out) = (st.after, st.marks)) : Rewarded st := by
  have hmarks : (a'.absorbWithin within (r', out)).2 = st.marks := congrArg Prod.snd hb
  have hafter : st.after.rendezvous = some r' :=
    (congrArg (·.1.rendezvous) hb).symm.trans (sameWork_absorbWithin within a' r' out).rendezvous
  have hdismissed : ∀ {r : Rendezvous}, st.before.rendezvous = some r →
      st.dismissals = out.filterMap (Output.dismissed? r.matchId) := by
    intro r hr
    simp only [Stage.dismissals, hr, ← hmarks]
    exact filterMap_emitAll rfl (fun _ _ => rfl) rfl (fun _ => rfl) (fun o => ⟨rfl, rfl⟩) within _
      out _
  -- a step that puts no success out
  have fails : ∀ {r : Rendezvous}, st.before.rendezvous = some r →
      (∀ id, out.filterMap (Output.dismissed? id) = []) →
      (∀ o ∈ out, ∀ invite, o.outcome? ≠ some (.complete invite)) → Rewarded st := by
    intro r hr hd ho
    refine .none ((hdismissed hr).trans (hd r.matchId)) (List.any_eq_false.2 ?_)
    intro c hc hcomplete
    rw [← hmarks] at hc
    obtain ⟨o, hmem, hout⟩ := outcome_of_callback hc
    obtain ⟨invite, hinvite⟩ := isComplete_iff.1 hcomplete
    exact ho o hmem invite (hinvite ▸ hout)
  cases h with
  | first hr _ _ hidle _ _ hpass =>
    cases Rendezvous.success_of_passage hpass (by simp [hidle]) with
    | none hd ho => exact fails hr hd ho
  | @later r _ n queue _ hr _ hp hq hd hpass =>
    have hv : r.phase = .verifying → r.role.verifies = true := by
      intro hv
      have hc := hd.course
      simp only [Rendezvous.Course, hv] at hc
      obtain ⟨localId, text, hrole, -⟩ := hc
      rw [hrole]
      rfl
    have hhandles : st.handles? = some n := by
      simp [Stage.handles?, hmove, hr, hp, hq]
    have hmode : r.phase ≠ .monitoring → st.before.mode = .before := fun hne => by
      simp [mode_of_some hr, modeOf, hp, hne]
    have hduty : r.OnDuty st.before.queue := hq ▸ hd
    cases Rendezvous.success_of_passage hpass hv with
    | none hd ho => exact fails hr hd ho
    | last he hrole hend =>
      refine .success hr hp hduty (hmode he.phase_ne) hhandles he ?_ ?_ ?_ ?_
      · rw [hdismissed hr]
        cases r.dismisses <;> rfl
      · simp [mode_of_some hafter, modeOf, hend]
      · intro hg
        rw [Stage.succeeds, ← hmarks]
        refine any_of_success rfl ?_ within _ hg
        intro o ho
        split at ho
        · rw [List.mem_singleton.1 ho]
          rfl
        · cases ho
      · intro hdis hrole'
        simp [hrole hdis] at hrole'
    | stays he hdis hmon =>
      refine .success hr hp hduty (hmode he.phase_ne) hhandles he ?_ ?_ ?_ ?_
      · rw [hdismissed hr, hdis]
        rfl
      · rw [mode_of_some hafter, modeOf]
        split <;> simp
      · intro hg
        rw [Stage.succeeds, ← hmarks]
        exact any_of_success rfl (List.forall_mem_nil _) within _ hg
      · intro _ _
        simp only [phase, hafter, hmon]

theorem rewarded_of_moves {a b : Agent} {mv : Move} {marks : List Mark} (h : a.Standing)
    (hm : a.Moves mv marks b) : Rewarded ⟨a, mv, marks, b⟩ := by
  cases hm with
  | step hs =>
    obtain ⟨a', r', out, hstride, hb⟩ := stride_of_stepWithin? h hs
    exact rewarded_of_stride hstride rfl hb
  | _ => exact .none rfl rfl

/-! ## Runs -/

/-- What holds of the dismissals so far, if nobody lets go. -/
structure Balanced (dismisses : Bool) (t : List Stage) (a : Agent) : Prop where
  before : a.mode = .before → dismissals t = []
  ids : ∀ id ∈ dismissals t, ∃ r, a.rendezvous = some r ∧ r.matchId = id
  length : (dismissals t).length ≤ 1
  iff : dismissals t ≠ [] ↔ dismisses = true ∧ ∃ st ∈ t, st.succeeds = true

/-- Nothing leads back to the mode before a success. -/
theorem before_of_moves {a b : Agent} {mv : Move} {marks : List Mark} (h : a.Standing)
    (hm : a.Moves mv marks b) (hb : b.mode = .before) : a.mode = .before := by
  have hh := heard_of_moves h hm
  generalize marks.filterMap Mark.callback? = cs at hh
  cases hh with
  | nothing hsame => exact hsame ▸ hb
  | left _ _ hend => simp [hb] at hend
  | success _ hwatch => simp [hb] at hwatch
  | last _ hend => simp [hb] at hend

theorem balanced_snoc {role : Role} {timing : Timing} {t : List Stage} {a b : Agent} {mv : Move}
    {marks : List Mark} (h : Run (ofRole role timing) t a) (ha : Attended t a)
    (hb : Balanced (timing.dismisses role) t a) (hm : a.Moves mv marks b) :
    Balanced (timing.dismisses role) (t ++ [⟨a, mv, marks, b⟩]) b := by
  obtain ⟨hst, haim⟩ := h.aimed
  have old : ∀ id ∈ dismissals t, ∃ r, b.rendezvous = some r ∧ r.matchId = id := by
    intro id hid
    obtain ⟨r, hr, rfl⟩ := hb.ids id hid
    obtain ⟨r', hr', haim⟩ := heir_of_moves hst hm hr
    exact ⟨r', hr', haim.matchId⟩
  cases rewarded_of_moves hst hm with
  | none hd hs =>
    have hsame : dismissals (t ++ [⟨a, mv, marks, b⟩]) = dismissals t := by
      rw [dismissals_snoc, hd, List.append_nil]
    refine ⟨?_, ?_, ?_, ?_⟩ <;> rw [hsame]
    · exact fun hmode => hb.before (before_of_moves hst hm hmode)
    · exact old
    · exact hb.length
    · rw [hb.iff]
      simp [hs]
  | @success r n invite hr hp hduty hmode hhandles he hd hmode' hs hmon =>
    have hopen : a.gate.closed = false := ha.gate fun hend => by simp [hmode] at hend
    have hdis : r.dismisses = timing.dismisses role :=
      (haim.started r hr).2.2.1.trans (timing.dismisses_eq role).symm
    have hall : dismissals (t ++ [⟨a, mv, marks, b⟩]) =
        if timing.dismisses role then [r.matchId] else [] := by
      rw [dismissals_snoc, hb.before hmode, hd, hdis, List.nil_append]
    refine ⟨?_, ?_, ?_, ?_⟩ <;> rw [hall]
    · exact fun hb' => absurd hb' hmode'
    · intro id hid
      split at hid
      · obtain rfl := List.mem_singleton.1 hid
        obtain ⟨r', hr', haim'⟩ := heir_of_moves hst hm hr
        exact ⟨r', hr', haim'.matchId⟩
      · cases hid
    · split <;> simp
    · cases hdis' : timing.dismisses role with
      | false => simp
      | true => simpa using .inr (hs hopen)

theorem Run.balanced {role : Role} {timing : Timing} {t : List Stage} {a : Agent}
    (h : Run (ofRole role timing) t a) (hl : ∀ st ∈ t, st.letsGo = false) :
    Balanced (timing.dismisses role) t a := by
  induction h with
  | nil => exact ⟨fun _ => rfl, List.forall_mem_nil _, Nat.zero_le 1, by simp [dismissals]⟩
  | snoc hrun hm ih =>
    obtain ⟨hl, -⟩ := List.forall_mem_append.1 hl
    exact balanced_snoc hrun (hrun.attended hl) (ih hl) hm

theorem exists_succeeds_iff {t : List Stage} :
    (∃ st ∈ t, st.succeeds = true) ↔ ∃ c ∈ callbacks t, c.report.isComplete = true := by
  simp only [Stage.succeeds, callbacks, List.any_eq_true, List.mem_flatMap]
  constructor
  · rintro ⟨st, hst, c, hc, hcomplete⟩
    exact ⟨c, ⟨st, hst, hc⟩, hcomplete⟩
  · rintro ⟨c, ⟨st, hst, hc⟩, hcomplete⟩
    exact ⟨st, hst, c, hc, hcomplete⟩

/-! ## What comes before a success -/

/-- What a stage with a dismissal rests on. -/
theorem Run.earned_of_dismissals {role : Role} {timing : Timing} {t₁ t₂ : List Stage} {st : Stage}
    {b : Agent} (h : Run (ofRole role timing) (t₁ ++ st :: t₂) b) (hd : st.dismissals ≠ []) :
    (∃ text hi, (Payload.invite text hi).encode ∈ accepted t₁) ∧
      (role.verifies = true → ∃ st' ∈ t₁, ∃ i, st'.move = .finish i (.probed .reachable)) := by
  obtain ⟨hbefore, hm, -⟩ := h.split
  obtain ⟨hst, haim⟩ := hbefore.aimed
  cases rewarded_of_moves hst hm with
  | none hnone => exact absurd hnone hd
  | @success r n invite hr hp hduty _ hhandles he =>
    refine ⟨hbefore.invite_accepted hr (by simp [hp]) hduty.course
      (mem_queue_of_handles? hhandles) he, ?_⟩
    intro hv
    cases he with
    | accepted _ _ _ hrole =>
      rw [← Role.verifies_blank, (haim.started r hr).2.2.2, Role.verifies_blank, hv] at hrole
      cases hrole
    | found => exact hbefore.exists_finish _ (mem_noticed_of_handles? hhandles)

/-! ## The watch after a success -/

/-- A watch for the end of the match `id` comes to its end in a stage, on what some feed
says of it. -/
def Stage.SeesEnd (st : Stage) (id : MatchId) (how : Departure) : Prop :=
  ∃ i task v feed, st.move = .finish i (.ended how) ∧ st.before.task? i = some task ∧
    task.work = .awaitEnd v ∧ v.matchId = id ∧ v.result? feed = some how

/-- After the stages `past` an agent watches the match `id`, through all the stages that are
left, or up to one in which it takes the news of the end, which then is past. -/
inductive Watches (id : MatchId) (past : List Stage) : List Stage → Agent → Prop
  | on {t : List Stage} {b : Agent} :
      (∀ st ∈ t, st.after.phase = .monitoring) → b.phase = .monitoring → Watches id past t b
  | left {t₁ t₂ : List Stage} {st : Stage} {b : Agent} {g : Nat} {how : Departure} :
      (∀ st ∈ t₁, st.after.phase = .monitoring) → st.handles? = some (.done g (.ended how)) →
      (∃ st' ∈ past ++ t₁, st'.SeesEnd id how) → st.after.phase = .finished →
      Watches id past (t₁ ++ st :: t₂) b

theorem watching_of_phase {a : Agent} (h : a.Standing) (hp : a.phase = .monitoring) :
    a.mode = .watching := by
  cases h with
  | unstarted hr => simp [phase, hr] at hp
  | fresh hr _ _ hidle => simp [phase, hr, hidle] at hp
  | @driving r hr _ hprog =>
    have hm : r.phase = .monitoring := by simpa only [phase, hr] using hp
    simp [mode_of_some hr, modeOf, hprog, hm]
  | ended hr _ ho => simp [phase, hr, ho.phase] at hp

/-- An agent that watches its match goes on watching it, or takes the news of the end. -/
theorem watches_of_moves {a b : Agent} {mv : Move} {marks : List Mark} (h : a.Standing)
    (hp : a.phase = .monitoring) (hq : .detach ∉ a.queue) (hm : a.Moves mv marks b) :
    b.phase = .monitoring ∨
      ∃ g how, Stage.handles? ⟨a, mv, marks, b⟩ = some (.done g (.ended how)) ∧
        b.phase = .finished := by
  have hmode := watching_of_phase h hp
  cases hm with
  | start hs =>
    obtain ⟨hr, -⟩ := start_of_standing h hs
    simp [phase, hr] at hp
  | owner c => exact .inl (phase_of_watching ((sameWork_call a c).mode_eq.trans hmode))
  | @step _ _ s within hs =>
    obtain ⟨a', r', out, hstride, hb⟩ := stride_of_stepWithin? h hs
    obtain ⟨rfl, -⟩ := Prod.ext_iff.1 hb
    have hr' := (sameWork_absorbWithin within a' r' out).rendezvous
    cases hstride with
    | first hr _ _ hidle => simp [phase, hr, hidle] at hp
    | @later r _ n queue _ hr _ hprog hqueue _ hpass =>
      have hphase : r.phase = .monitoring := monitoring_of_watching hmode hr
      have hn : n ≠ .detach := by
        rintro rfl
        exact hq (hqueue ▸ List.mem_cons_self)
      obtain ⟨g, how, rfl, rfl, -⟩ := Rendezvous.outputs_of_monitoring hpass hphase hn
      refine .inr ⟨g, how, by simp [Stage.handles?, hr, hprog, hqueue], ?_⟩
      simp only [phase, hr']
      rfl
  | goOn ht =>
    obtain ⟨r, j, hr, -, -, -⟩ := exists_of_task? ht
    exact .inl (by simpa [phase, progress, hr] using hp)
  | finish ht =>
    obtain ⟨r, j, hr, -, -, -⟩ := exists_of_task? ht
    exact .inl (by simpa [phase, complete, hr, ht] using hp)

section Run
variable {role : Role} {timing : Timing} {t : List Stage} {a b : Agent}

/-- An agent watches for no end but that of its own match. -/
theorem Run.endings (h : Run (ofRole role timing) t b) :
    ∀ r, b.rendezvous = some r → ∀ id ∈ r.endings, id = r.matchId := by
  induction h with
  | nil => exact fun r hr => by cases hr
  | @snoc t a b mv marks hrun hm ih =>
    have hst := hrun.aimed.1
    intro r' hb
    cases hm with
    | start hs =>
      obtain ⟨-, -, role, -, rfl⟩ := start_of_standing hst hs
      obtain rfl := Option.some.inj hb
      exact List.forall_mem_nil _
    | owner c => exact ih r' ((sameWork_call a c).rendezvous ▸ hb)
    | @step _ _ s within hs =>
      obtain ⟨a', r'', out, hstride, heq⟩ := stride_of_stepWithin? hst hs
      obtain ⟨rfl, -⟩ := Prod.ext_iff.1 heq
      rw [(sameWork_absorbWithin within a' r'' out).rendezvous] at hb
      obtain rfl := Option.some.inj hb
      obtain ⟨r, cause, hr, hpass⟩ : ∃ r cause, a.rendezvous = some r ∧
          r.Passage s cause r'' out := by
        cases hstride with
        | first hr _ _ _ _ _ hpass => exact ⟨_, _, hr, hpass⟩
        | later hr _ _ _ _ hpass => exact ⟨_, _, hr, hpass⟩
      intro id hid
      rw [(Rendezvous.sameAim_of_passage hpass).matchId]
      rcases Rendezvous.endings_of_passage hpass id hid with hold | hnew
      · exact ih r hr id hold
      · exact hnew
    | @goOn i _ work ht hbec =>
      obtain ⟨r, j, hr, hj, -, rfl⟩ := exists_of_task? ht
      obtain rfl := Option.some.inj ((rendezvous_progress hr i work).symm.trans hb)
      exact Rendezvous.endings_progress hj hbec ▸ ih r hr
    | @finish i _ how ht =>
      obtain ⟨r, j, hr, -, -, -⟩ := exists_of_task? ht
      obtain rfl := Option.some.inj ((rendezvous_complete hr ht how).symm.trans hb)
      exact Rendezvous.endings_complete r i ▸ ih r hr

/-- An agent is started once. -/
theorem Run.startedOn_append {past : List Stage} (h : Run (ofRole role timing) (past ++ t) b)
    {id : MatchId} (hid : startedOn past = [id]) : startedOn (past ++ t) = [id] := by
  have hall : startedOn (past ++ t) = id :: startedOn t := by
    simp only [startedOn, List.filterMap_append] at hid ⊢
    rw [hid, List.singleton_append]
  cases hr : b.rendezvous with
  | none => exact absurd (hall.symm.trans (h.aimed.2.unstarted hr).2.2) (by simp)
  | some r =>
    have hone := (h.aimed.2.started r hr).1
    rw [hall] at hone ⊢
    rw [(List.cons.inj hone).2]

/-- News of an end are those of a watch for the end of the match. -/
theorem Run.seesEnd (h : Run (ofRole role timing) t b) {id : MatchId} (hid : startedOn t = [id])
    {g : Nat} {how : Departure} (hn : (g, .ended how) ∈ noticed b.queue) :
    ∃ st ∈ t, st.SeesEnd id how := by
  obtain ⟨st, hmem, i, hmove⟩ := h.exists_finish _ hn
  obtain ⟨t₁, t₂, rfl⟩ := List.append_of_mem hmem
  obtain ⟨hbefore, hm, -⟩ := h.split
  obtain ⟨a, mv, marks, c⟩ := st
  obtain rfl : mv = .finish i (.ended how) := hmove
  refine ⟨_, hmem, ?_⟩
  replace hm : a.Moves (.finish i (.ended how)) marks c := hm
  cases hm with
  | @finish _ task _ ht he =>
    obtain ⟨r, j, hr, hj, -, rfl⟩ := exists_of_task? ht
    obtain ⟨v, feed, hv, hresult⟩ : ∃ v feed, j.work.work = .awaitEnd v ∧
        v.result? feed = some how := by
      cases hw : j.work.work <;> simp_all [Work.MayEnd]
    have hown : v.matchId = r.matchId := by
      refine hbefore.endings r hr v.matchId (List.mem_filterMap.2 ⟨j, ?_, by rw [hv]; rfl⟩)
      exact List.mem_of_getElem? hj
    have hfirst : [r.matchId] = [id] :=
      (h.startedOn_append (hbefore.aimed.2.started r hr).1).symm.trans hid
    exact ⟨i, j.work, v, feed, rfl, ht, hv, hown.trans (List.singleton_inj.1 hfirst), hresult⟩

/-- From a success with more to come on, a run is a watch. -/
theorem Run.watches {past : List Stage} (h₁ : Run (ofRole role timing) past a) (h₂ : Run a t b)
    (hl : ∀ st ∈ past ++ t, st.letsGo = false) {id : MatchId}
    (hid : startedOn past = [id]) (hp : a.phase = .monitoring) : Watches id past t b := by
  induction h₂ with
  | nil => exact .on (List.forall_mem_nil _) hp
  | @snoc t b c mv marks h₂ hm ih =>
    rw [← List.append_assoc] at hl
    obtain ⟨hl, -⟩ := List.forall_mem_append.1 hl
    have hrun := h₁.append h₂
    cases ih hl with
    | on hall hb =>
      rcases watches_of_moves hrun.aimed.1 hb (hrun.attended hl).queue hm with
        hc | ⟨g, how, hn, hc⟩
      · exact .on (List.forall_mem_append.2 ⟨hall, by simpa using hc⟩) hc
      · have hsees := hrun.seesEnd (hrun.startedOn_append hid) (mem_noticed_of_handles? hn)
        exact .left hall hn hsees hc
    | @left t₁ t₂ st _ g how hall hn hsees hend =>
      rw [List.append_assoc, List.cons_append]
      exact .left hall hn hsees hend

end Run

/-- An agent that nobody lets go of dismisses its match once at most, the match that it was
started on, and it does so just when it tells of a success and is to dismiss.  By then the
service has accepted a turn with an invite, and a peer that was to be verified was found.  If
it is to dismiss, a success is all that it tells; if it is not and verifies no peer, it goes
on to watch the match until that, or the service, is seen to end. -/
theorem dismissed_iff_complete {role : Role} {timing : Timing} {t : List Stage} {b : Agent}
    (h : Run (ofRole role timing) t b) (hl : ∀ st ∈ t, st.letsGo = false) :
    (dismissals t = [] ∨ ∃ id, dismissals t = [id] ∧ startedOn t = [id]) ∧
      (dismissals t ≠ [] ↔
        timing.dismisses role = true ∧ ∃ c ∈ callbacks t, c.report.isComplete = true) ∧
      (∀ t₁ st t₂, t = t₁ ++ st :: t₂ → st.dismissals ≠ [] →
        (∃ text hi, (Payload.invite text hi).encode ∈ accepted t₁) ∧
          (role.verifies = true → ∃ st' ∈ t₁, ∃ i, st'.move = .finish i (.probed .reachable))) ∧
      (timing.dismisses role = true →
        ∀ c ∈ callbacks t, c.report.isComplete = true → callbacks t = [c]) ∧
      (timing.dismisses role = false → role.verifies = false →
        ∀ t₁ st t₂, t = t₁ ++ st :: t₂ → st.succeeds = true →
          st.after.phase = .monitoring ∧
            ∃ id, startedOn t = [id] ∧ Watches id (t₁ ++ [st]) t₂ b) := by
  have hb := h.balanced hl
  refine ⟨?_, ?_, ?_, ?_, ?_⟩
  · cases hd : dismissals t with
    | nil => exact .inl rfl
    | cons id rest =>
      have hlength := hb.length
      rw [hd, List.length_cons] at hlength
      obtain rfl := List.eq_nil_of_length_eq_zero (Nat.le_zero.1 (Nat.le_of_succ_le_succ hlength))
      obtain ⟨r, hr, rfl⟩ := hb.ids id (by simp [hd])
      exact .inr ⟨_, rfl, (h.aimed.2.started r hr).1⟩
  · exact hb.iff.trans (and_congr_right fun _ => exists_succeeds_iff)
  · rintro t₁ st t₂ rfl hd
    exact h.earned_of_dismissals hd
  · intro hdis c hc hcomplete
    have stays : ¬ Stays role timing := by
      rintro ⟨hfalse, -⟩
      rw [← timing.dismisses_eq role, hdis] at hfalse
      cases hfalse
    have htrace := h.telling.trace
    generalize callbacks t = cs at hc htrace
    cases htrace with
    | silent => cases hc
    | told => rw [List.mem_singleton.1 hc]
    | success _ _ hstays => exact absurd hstays stays
    | gone _ _ hstays => exact absurd hstays stays
  · rintro hdis hv t₁ st t₂ rfl hs
    obtain ⟨hbefore, hm, hafter⟩ := h.split
    obtain ⟨hst, haim⟩ := hbefore.aimed
    cases rewarded_of_moves hst hm with
    | none _ hfails => exact absurd hs (by simp [hfails])
    | @success r n invite hr _ _ _ _ _ _ _ _ hmon =>
      obtain ⟨hstart, -, hdis', hblank⟩ := haim.started r hr
      have hrole : r.role.verifies = false := by
        rw [← Role.verifies_blank, hblank, Role.verifies_blank, hv]
      have hphase := hmon (hdis'.trans ((timing.dismisses_eq role).symm.trans hdis)) hrole
      refine ⟨hphase, r.matchId, h.startedOn_append hstart, ?_⟩
      have hpast := hbefore.snoc hm
      rw [← List.singleton_append, ← List.append_assoc] at hl
      exact hpast.watches hafter hl (hpast.startedOn_append hstart) hphase

/-- A client that finds an invite dismisses the match; a host that has left one stays until
the match is gone. -/
theorem dismissed_by_a_client_not_by_a_host :
    (∃ t b, Run (ofRole (.client none) {}) t b ∧ (∀ st ∈ t, st.letsGo = false) ∧
        dismissals t = [⟨"m"⟩] ∧ startedOn t = [⟨"m"⟩] ∧
        ∃ c, callbacks t = [c] ∧ c.report.outcome = .complete (some "x")) ∧
      ∃ t₁ st t₂ b, Run (ofRole (.host "here") {}) (t₁ ++ st :: t₂) b ∧
        (∀ st' ∈ t₁ ++ st :: t₂, st'.letsGo = false) ∧ st.succeeds = true ∧
        dismissals (t₁ ++ st :: t₂) = [] ∧ st.after.phase = .monitoring ∧ b.phase = .finished ∧
        ∃ id, Watches id (t₁ ++ [st]) t₂ b := by
  let s : Surroundings := { now := 0, position := 0 }
  constructor
  · let m : Match :=
      { id := ⟨"m"⟩, status := .active, turn := .mine, participants := [⟨"ann"⟩, ⟨"bob"⟩]
        creator := ⟨"bob"⟩, viewer := ⟨"ann"⟩, version := 1
        data := some (Payload.withInvite "x").encode }
    have started := Run.nil.snoc (.start (a := ofRole (.client none) {}) (s := true)
      (m := m) (n := 0) rfl)
    have played := started.snoc (.step (s := s) (w := []) rfl)
    have issued := played.snoc (.goOn (i := 0) rfl rfl)
    have answered := issued.snoc (.finish (i := 0) (e := .submitted (.ok ())) rfl rfl)
    have run := answered.snoc (.step (s := s) (w := []) rfl)
    obtain ⟨honce, hiff, -, hlast, -⟩ := dismissed_iff_complete run (by decide)
    have hne := hiff.2 ⟨rfl, _, List.mem_singleton_self _, rfl⟩
    obtain ⟨id, hid, hstart⟩ := honce.resolve_left hne
    obtain rfl : id = ⟨"m"⟩ := (List.singleton_inj.1 hstart).symm
    exact ⟨_, _, run, by decide, hid, hstart, _, hlast rfl _ (List.mem_singleton_self _) rfl, rfl⟩
  · let m : Match :=
      { id := ⟨"m"⟩, status := .active, turn := .mine, participants := [⟨"ann"⟩, ⟨"bob"⟩]
        creator := ⟨"ann"⟩, viewer := ⟨"ann"⟩, data := none, version := 0 }
    let news : Feed MatchNews := { capacity := 64, sent := [.removed ⟨"m"⟩] }
    have started := Run.nil.snoc (.start (a := ofRole (.host "here") {}) (s := true)
      (m := m) (n := 0) rfl)
    have played := started.snoc (.step (s := s) (w := []) rfl)
    have issued := played.snoc (.goOn (i := 0) rfl rfl)
    have answered := issued.snoc (.finish (i := 0) (e := .submitted (.ok ())) rfl rfl)
    have reported := answered.snoc (.step (s := s) (w := []) rfl)
    have seen := reported.snoc (.finish (i := 1) (e := .ended .removed) rfl ⟨news, rfl⟩)
    have run := seen.snoc (.step (s := s) (w := []) rfl)
    obtain ⟨-, hiff, -, -, hstays⟩ := dismissed_iff_complete run (by decide)
    obtain ⟨hphase, id, -, hwatches⟩ := hstays rfl rfl [_, _, _, _] _ [_, _] rfl rfl
    exact ⟨[_, _, _, _], _, [_, _], _, run, by decide, rfl, rfl, hphase, rfl, id, hwatches⟩

end Agent

/-! ## What a world makes of it -/

/-- A step of a rendezvous leaves the dismissals of its stage to be carried out. -/
theorem World.dismissals_of_stepRendezvous? {w w' : World Lobby} {i : Nat} {words : List UInt64}
    (hb : w.stepRendezvous? i words = some w') :
    ∃ (m : Member) (st : Agent.Stage), w.members[i]? = some m ∧ st.before = m.agent ∧
      st.before.Moves st.move st.marks st.after ∧
      w'.dismissals = w.dismissals ++ st.dismissals.map fun id => (m.caller, id) := by
  obtain ⟨m, agent, marks, hm, hstep, rfl⟩ := carryOut_of_stepRendezvous hb
  refine ⟨m, ⟨m.agent, _, marks, agent⟩, hm, rfl, .step hstep, ?_⟩
  have hmarks : (marks.map Agent.Mark.effect).filterMap m.dismissal? =
      (marks.filterMap (Agent.Mark.dismissed? (m.agent.rendezvous.map (·.matchId)))).map
        fun id => (m.caller, id) := by
    rw [List.filterMap_map, List.map_filterMap]
    refine List.filterMap_congr ?_
    intro mark _
    cases mark with
    | dismissed =>
      simp [Function.comp_def, Agent.Mark.effect, Member.dismissal?, Agent.Mark.dismissed?]
    | _ => rfl
  rw [(tends_carryOut hm agent _).1.dismissals, hmarks]
  rfl

end TurnRendezvous
