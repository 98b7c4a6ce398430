/-
# `Agent.Armed` — how long an agent waits for a turn

An empty wait is meant to have no end.  The first wait keeps to that: it is armed with
`Duration.limit?`, and an empty limit is none.  Every later wait is armed with what the
role's decision says, a limit in any case, and so an empty one is over at once, or as
soon as the random shift is (`empty_later_wait_runs_out`).

`Timed` is the deadline of a wait, by whether a turn was played before it.  `Armed`
says that every watch that still runs has that deadline, and that a time-out on its way
comes from a watch that had one.

* `armed_of_passage`, `armed_of_moves`: every move keeps the watches armed so;
* `timeout_of_passage`: only a time-out on its way is reported as one;
* `empty_first_wait_has_no_end`: what this says about runs.
-/
import TurnRendezvous.Proofs.Agent.Callbacks
import TurnRendezvous.Proofs.Agent.Submissions

namespace TurnRendezvous

/-- A notice that ends a wait, and not because time ran out: the turn, the end or the
removal of the match, the end of the service, or that the owner lets go. -/
inductive Notice.EndsWait : Notice → Prop
  | turn (g : Nat) (m : Match) : EndsWait (.done g (.turn (.myTurn m)))
  | removed (g : Nat) : EndsWait (.done g (.turn .removed))
  | serviceClosed (g : Nat) : EndsWait (.done g (.turn .serviceClosed))
  | detach : EndsWait .detach

/-- No news says that time ran out. -/
theorem TurnWatch.verdict_ne_timedOut (id : MatchId) (n : MatchNews) :
    verdict id n ≠ some .timedOut := by
  cases n with
  | removed r =>
    simp only [verdict]
    split <;> simp
  | received m =>
    simp only [verdict]
    repeat' split
    all_goals simp

/-- A watch that times out has a deadline. -/
theorem TurnWatch.deadline_ne_none {w : TurnWatch} {feed : Feed MatchNews} {now : Instant}
    (h : w.result? feed now = some .timedOut) : w.deadline ≠ none := by
  intro hd
  unfold result? at h
  split at h
  next hf =>
    obtain rfl := Option.some.inj h
    obtain ⟨n, -, hn⟩ := List.exists_of_findSome?_eq_some hf
    exact verdict_ne_timedOut _ n hn
  next => simp [isOverdue, hd] at h

namespace Rendezvous

/-! ## The deadlines of waits -/

/-- The deadline of a wait, given what was found in the turn before it. -/
def Timed (timing : Timing) (old : Option Payload) (deadline : Option Instant) : Prop :=
  ∃ armed : Instant,
    match old with
    | none => deadline = timing.firstTurnWait.limit?.map fun d => armed + d.nanos
    | some _ => ∃ words,
      deadline = some (armed + (Jitter.spread timing.defaultTurnWait timing.jitterMax words).1.nanos)

/-- A wait that follows a turn on its way is the usual one. -/
def WaitsAsUsual (r : Rendezvous) : Prop :=
  ∀ p base, r.pending = some p → p.nextWait = .after base → base = r.timing.defaultTurnWait

/-- Every watch that can still deliver has the deadline of its wait, and whoever is about
to hear that time ran out waited with one. -/
structure Armed (r : Rendezvous) (queue : List Notice) : Prop where
  pending : r.WaitsAsUsual
  running : ∀ t ∈ r.jobs.running, ∀ w, t.work = .awaitTurn w →
    Timed r.timing r.oldData w.deadline
  timedOut : ∀ n ∈ noticed queue, n.2 = .turn .timedOut →
    ∃ deadline, deadline ≠ none ∧ Timed r.timing r.oldData deadline

/-- A role never asks for a wait of another length than the usual one. -/
theorem base_of_verdict {m : Match} {wait base : Duration} {role : Role} {old : Option Payload}
    {d : Decision} (h : Role.Verdict m wait role old d) (hd : d.nextWait = .after base) :
    base = wait := by
  cases h with
  | passed => exact (Patience.after.inj hd).symm
  | _ => cases hd

section Free
variable {r : Rendezvous} {queue : List Notice} (hr : r.jobs.running = [])
  (hq : noticed queue = [])

include hr hq in
/-- What begins with a single watch on a turn. -/
theorem armed_awaitTurn (hw : r.WaitsAsUsual) {now : Instant} {position : Nat}
    {timeout : Option Duration}
    (ht : Timed r.timing r.oldData (timeout.map fun d => now + d.nanos)) :
    (r.awaitTurn now position timeout).Armed queue where
  pending := hw
  running := by
    intro t hmem w hw
    simp only [awaitTurn, watch, enter, Registry.running_spawn, hr, List.nil_append,
      List.mem_singleton] at hmem
    subst hmem
    obtain rfl := Work.awaitTurn.inj hw
    exact ht
  timedOut := by simp [hq]

include hq in
/-- What begins with other work. -/
theorem armed_of_running (hw : r.WaitsAsUsual)
    (hr : ∀ t ∈ r.jobs.running, t.work.activity ≠ .turnWait) : r.Armed queue where
  pending := hw
  running := by
    intro t hmem w hw
    exact absurd (by rw [hw]; rfl) (hr t hmem)
  timedOut := by simp [hq]

include hr hq in
theorem armed_of_played {r' : Rendezvous} {m : Match} {position : Nat} {out : List Output}
    (h : r.Played m position r' out) : r'.progress = .ended ∨ r'.Armed queue := by
  cases h with
  | refused => exact .inl rfl
  | handed hv =>
    refine .inr (armed_of_running hq ?_ (by simp [submit, hr, Work.activity]))
    rintro _ base ⟨⟩ hbase
    exact base_of_verdict hv hbase

/-- A step that goes on starts a watch with the deadline of its wait, or no watch. -/
theorem armed_of_passage {s : Surroundings} {r' : Rendezvous} {cause : Cause}
    {out : List Output} (h : r.Passage s cause r' out) (hw : r.WaitsAsUsual)
    (hl : ∀ m position, cause = .look m position → r.phase = .idle ∧ r.oldData = none)
    (hfree : r.phase ≠ .verifying → r.jobs.running = [] ∧ noticed queue = []) :
    r'.progress = .ended ∨ r'.Armed queue := by
  have spent : ∀ {q : Rendezvous}, q.pending = none → q.WaitsAsUsual := by
    intro q hq p base hp
    simp [hq] at hp
  cases h with
  | firstTurn _ hp =>
    obtain ⟨hr, hq⟩ := hfree (by simp [(hl _ _ rfl).1])
    exact armed_of_played (r := { r with progress := .underway }) hr hq hp
  | firstWait =>
    obtain ⟨hphase, hold⟩ := hl _ _ rfl
    obtain ⟨hr, hq⟩ := hfree (by simp [hphase])
    refine .inr (armed_awaitTurn (r := { r with progress := .underway }) hr hq hw ?_)
    exact ⟨s.now, by simp only [hold]⟩
  | laterTurn hphase hp =>
    obtain ⟨hr, hq⟩ := hfree (by simp [hphase])
    exact armed_of_played hr hq hp
  | passedOn hphase hpend hwait _ _ hold =>
    obtain ⟨hr, hq⟩ := hfree (by simp [hphase])
    obtain rfl := hw _ _ hpend hwait
    refine .inr (armed_awaitTurn (r := { r with submission := none, pending := none }) hr hq
      (spent rfl) ?_)
    exact ⟨s.now, by simp only [hold]; exact ⟨s.words, rfl⟩⟩
  | stayed hphase =>
    obtain ⟨hr, hq⟩ := hfree (by simp [hphase])
    exact .inr (armed_of_running hq (spent rfl) (by simp [awaitEnd, watch, enter, hr, Work.activity]))
  | verifies hphase _ _ hrole =>
    obtain ⟨hr, hq⟩ := hfree (by simp [hphase])
    refine .inr (armed_of_running hq (spent ?_) ?_)
    · simp [verify, hrole, watch, enter]
    · simp [verify, hrole, watch, enter, hr, Work.activity]
  | _ => exact .inl rfl

end Free

/-- Only a time-out on its way is reported as one. -/
theorem timeout_of_passage {s : Surroundings} {r r' : Rendezvous} {cause : Cause}
    {out : List Output} (h : r.Passage s cause r' out) {o : Output} (ho : o ∈ out)
    (ht : o.outcome? = some .timeout) :
    cause = .notice (.done r.generation (.turn .timedOut)) := by
  cases h with
  | firstTurn _ hp => cases outcome_of_played hp ho ht
  | laterTurn _ hp =>
    rcases List.mem_cons.1 ho with rfl | ho
    · cases ht
    · cases outcome_of_played hp ho ht
  | @waitEnded result _ _ hres =>
    obtain rfl := List.mem_singleton.1 ho
    cases result with
    | timedOut => rfl
    | _ => simp_all [TurnResult.outcome?, Output.outcome?]
  | @gone how =>
    obtain rfl := List.mem_singleton.1 ho
    cases how <;> cases ht
  | succeeded =>
    simp only [List.mem_cons, List.not_mem_nil, or_false] at ho
    rcases ho with rfl | rfl <;> cases ht
  | reachable =>
    rcases List.mem_append.1 ho with ho | ho
    · split at ho <;> simp_all [Output.outcome?]
    · obtain rfl := List.mem_singleton.1 ho
      cases ht
  | _ => simp_all [Output.outcome?]

/-- What still runs after a change of the jobs has the deadline that it had. -/
theorem armed_modify {r : Rendezvous} {queue : List Notice} (h : r.Armed queue)
    {jobs : Registry Task}
    (hj : ∀ t ∈ jobs.running, t ∈ r.jobs.running ∨
      ∃ t' ∈ r.jobs.running, ∀ w, t.work = .awaitTurn w →
        ∃ w', t'.work = .awaitTurn w' ∧ w'.deadline = w.deadline) :
    (r.withJobs jobs).Armed queue where
  pending := h.pending
  running := by
    intro t ht w hw
    rcases hj t ht with ht | ⟨t', ht', hsame⟩
    · exact h.running t ht w hw
    · obtain ⟨w', hw', hd⟩ := hsame w hw
      exact hd ▸ h.running t' ht' w' hw'
  timedOut := h.timedOut

end Rendezvous

namespace Agent

/-! ## Through a run -/

/-- The watches of an agent that is not over have the deadlines of their waits. -/
def Armed (a : Agent) : Prop :=
  ∀ r, a.rendezvous = some r → r.progress ≠ .ended → r.Armed a.queue

theorem Armed.congr {a b : Agent} (h : a.Armed) (hs : a.SameWork b) : b.Armed := by
  intro r hr hp
  have ha := h r (hs.rendezvous ▸ hr) hp
  exact ⟨ha.pending, ha.running, hs.noticed ▸ ha.timedOut⟩

theorem armed_of_stride {a a' : Agent} {s : Surroundings} {r' : Rendezvous} {out : List Output}
    (h : a.Stride s a' r' out) (hst : a.Standing) (ha : a.Armed) :
    Armed { a' with rendezvous := some r' } := by
  rintro _ ⟨⟩ hp
  cases h with
  | first hr _ hfresh hphase hold hjobs hpass =>
    have hw := (ha _ hr (by simp [hfresh])).pending
    refine (Rendezvous.armed_of_passage hpass hw ?_ ?_).resolve_left hp
    · exact fun _ _ _ => ⟨hphase, hold⟩
    · exact fun _ => ⟨by simp [hjobs, Registry.running], hst.noticed_eq_nil hr hfresh⟩
  | @later r _ n queue _ hr _ hu _ hd hpass =>
    have hw := (ha _ hr (by simp [hu])).pending
    refine (Rendezvous.armed_of_passage hpass hw (by simp) ?_).resolve_left hp
    intro hphase
    cases n with
    | detach =>
      cases hpass
      exact absurd rfl hp
    | done g how => exact (Rendezvous.onDuty_notice hd).2.2 hphase

theorem armed_of_moves {a b : Agent} {mv : Move} {marks : List Mark} (h : a.Standing)
    (ha : a.Armed) (hm : a.Moves mv marks b) : b.Armed := by
  cases hm with
  | start hs =>
    obtain ⟨-, hq, role, -, rfl⟩ := start_of_standing h hs
    rintro _ ⟨⟩ -
    exact Rendezvous.armed_of_running hq (by simp [Rendezvous.WaitsAsUsual])
      (by simp [Registry.running])
  | owner c => exact ha.congr (sameWork_call a c)
  | step hs =>
    obtain ⟨a', r', out, hstride, hb⟩ := stride_of_stepWithin? h hs
    obtain ⟨rfl, -⟩ := Prod.ext_iff.1 hb
    exact (armed_of_stride hstride h ha).congr (sameWork_absorbWithin _ a' r' out)
  | @goOn i _ work ht hb =>
    obtain ⟨r, j, hr, hj, -, rfl⟩ := exists_of_task? ht
    intro r' hr' hp
    obtain rfl := Option.some.inj ((rendezvous_progress hr i work).symm.trans hr')
    refine Rendezvous.armed_modify (ha r hr hp) ?_
    intro t hmem
    rcases Registry.mem_running_of_progress hmem with hmem | ⟨j', hj', hrun, rfl⟩
    · exact .inl hmem
    · obtain rfl := Option.some.inj (hj.symm.trans hj')
      refine .inr ⟨_, hrun, ?_⟩
      intro w hw
      -- a watch goes on from another place in its feed
      obtain rfl : work = .awaitTurn w := hw
      cases hwork : j.work.work with
      | awaitTurn v =>
        rw [hwork] at hb
        obtain ⟨feed, hv⟩ := hb
        exact ⟨v, rfl, by rw [Work.awaitTurn.inj hv]; rfl⟩
      | submit data next issued => cases issued <;> simp [hwork, Work.MayBecome] at hb
      | probe invite localId reply => cases reply <;> simp [hwork, Work.MayBecome] at hb
      | _ => simp [hwork, Work.MayBecome] at hb
  | @finish i _ how ht he =>
    obtain ⟨r, j, hr, hj, -, rfl⟩ := exists_of_task? ht
    intro r' hr' hp
    obtain rfl := Option.some.inj ((rendezvous_complete hr ht how).symm.trans hr')
    have harmed := ha r hr hp
    have hsub := Registry.running_modify_subset r.jobs i (f := (·.complete.2)) (by simp) (by simp)
    have hold : (r.withJobs (r.jobs.complete i).2).Armed a.queue :=
      Rendezvous.armed_modify harmed fun t hmem => .inl (hsub hmem)
    rw [complete_eq hr ht how]
    refine ⟨hold.pending, hold.running, ?_⟩
    split
    next hd =>
      rw [noticed_append]
      refine List.forall_mem_append.2 ⟨hold.timedOut, ?_⟩
      simp only [noticed, List.mem_singleton, forall_eq]
      rintro rfl
      -- the watch that timed out was running, and had a deadline
      have hrun : j.work ∈ r.jobs.running := by
        refine Registry.mem_running.2 ⟨i, j, hj, ?_, rfl⟩
        simpa [Registry.complete, hj, Job.fst_complete] using hd
      cases hwork : j.work.work with
      | awaitTurn w =>
        rw [hwork] at he
        obtain ⟨feed, now, hres⟩ := he
        exact ⟨w.deadline, TurnWatch.deadline_ne_none hres, harmed.running _ hrun w hwork⟩
      | _ => simp [hwork, Work.MayEnd] at he
    next => exact hold.timedOut

theorem Run.armed {role : Role} {timing : Timing} {t : List Stage} {b : Agent}
    (h : Run (ofRole role timing) t b) : b.Armed := by
  induction h with
  | nil => exact fun r hr => by cases hr
  | snoc hrun hm ih => exact armed_of_moves hrun.aimed.1 ih hm

section Run
variable {role : Role} {timing : Timing} {t : List Stage} {b : Agent}
  (h : Run (ofRole role timing) t b)
include h

/-- Whoever has played no turn has found nothing yet. -/
theorem Run.oldData_of_unplayed (hp : plays t = []) {r : Rendezvous} (hr : b.rendezvous = some r)
    (hu : r.progress ≠ .ended) : r.oldData = none := by
  obtain ⟨ps, old, hps, hsaid, hold⟩ := h.handing.said
  have hsub : submissions t = [] := by rw [h.handing.plays, hp]; rfl
  obtain rfl : ps = [] := List.map_eq_nil_iff.1 (hps.symm.trans hsub)
  cases hsaid
  exact hold _ (by simp [memory?_of_some hr, hu])

/-- Whoever has played a turn and goes on remembers what it found. -/
theorem Run.oldData_of_played (hp : plays t ≠ []) {r : Rendezvous} (hr : b.rendezvous = some r)
    (hu : r.progress ≠ .ended) : ∃ p, r.oldData = some p := by
  cases hold : r.oldData with
  | none => exact absurd (h.handing.unplayed (by simp [memory?_of_some hr, hu, hold])) hp
  | some p => exact ⟨p, rfl⟩

/-- A watch that is at work has the deadline of its wait. -/
theorem Run.timed {r : Rendezvous} (hr : b.rendezvous = some r) (hu : r.progress ≠ .ended)
    {i : JobId} {g : Nat} {w : TurnWatch} (ht : b.task? i = some ⟨g, .awaitTurn w⟩) :
    Rendezvous.Timed timing r.oldData w.deadline := by
  obtain ⟨r', j, hr', hj, hw, hwork⟩ := exists_of_task? ht
  obtain rfl := Option.some.inj (hr.symm.trans hr')
  have hd := h.loaded.allOpen r hr hu j (List.mem_of_getElem? hj) hw
  have htimed := (h.armed r hr hu).running _ (Registry.mem_running.2 ⟨i, j, hj, hd, hwork⟩) w rfl
  rwa [(h.aimed.2.started r hr).2.1] at htimed

/-- In an empty first wait nobody is about to hear that time ran out. -/
theorem Run.not_timedOut (hz : timing.firstTurnWait.isZero = true) (hp : plays t = [])
    {r : Rendezvous} (hr : b.rendezvous = some r) (hu : r.progress ≠ .ended) (g : Nat) :
    (g, .turn .timedOut) ∉ noticed b.queue := by
  intro hmem
  obtain ⟨deadline, hne, armed, hd⟩ := (h.armed r hr hu).timedOut _ hmem rfl
  rw [h.oldData_of_unplayed hp hr hu, (h.aimed.2.started r hr).2.1] at hd
  simp only [Duration.limit?, hz, if_true, Option.map_none] at hd
  exact hne hd

end Run

/-- A rendezvous that waits for a turn is on duty. -/
theorem onDuty_of_waiting {a : Agent} (h : a.Standing) (hw : a.phase = .waitingForTurn) :
    ∃ r, a.rendezvous = some r ∧ r.progress = .underway ∧ r.phase = .waitingForTurn ∧
      r.OnDuty a.queue := by
  cases h with
  | unstarted hr => simp [phase, hr] at hw
  | fresh hr _ _ hphase => simp [phase, hr, hphase] at hw
  | driving hr _ hp hd => exact ⟨_, hr, hp, by simpa [phase, hr] using hw, hd⟩
  | ended hr _ ho => simp [phase, hr, ho.phase] at hw

/-- Nothing but a step takes an agent out of a wait, and a step on a time-out only if
there is one in the queue. -/
theorem waits_or_handles {a b : Agent} {mv : Move} {marks : List Mark} (h : a.Standing)
    (hw : a.phase = .waitingForTurn) (ht : ∀ g, (g, .turn .timedOut) ∉ noticed a.queue)
    (hm : a.Moves mv marks b) :
    (b.phase = .waitingForTurn ∧ marks = []) ∨
      ∃ n, Stage.handles? ⟨a, mv, marks, b⟩ = some n ∧ n.EndsWait := by
  obtain ⟨r, hr, hp, hphase, hd⟩ := onDuty_of_waiting h hw
  cases hm with
  | start hs => simp [(start_of_standing h hs).1] at hr
  | owner c =>
    have hsame := (sameWork_call a c).rendezvous.trans hr
    exact .inl ⟨by simp [phase, hsame, hphase], rfl⟩
  | goOn => exact .inl ⟨by simp [phase, progress, hr, hphase], rfl⟩
  | finish htask => exact .inl ⟨by simp [phase, complete, hr, htask, hphase], rfl⟩
  | step hs =>
    cases hq : a.queue with
    | nil => simp [stepWithin?, next?, hr, hp, hq] at hs
    | cons n queue =>
      refine .inr ⟨n, by simp [Stage.handles?, hr, hp, hq], ?_⟩
      rw [hq] at hd ht
      cases n with
      | detach => exact .detach
      | done g how =>
        have hact := (Rendezvous.onDuty_notice hd).2.1
        cases how with
        | turn result =>
          cases result with
          | myTurn m => exact .turn g m
          | timedOut => exact absurd List.mem_cons_self (ht g)
          | removed => exact .removed g
          | serviceClosed => exact .serviceClosed g
        | _ => simp [hphase, Phase.activities, TaskEnd.activity] at hact

/-- Nobody hears that time ran out, unless the agent was about to hear it. -/
theorem not_timeout_of_moves {a b : Agent} {mv : Move} {marks : List Mark} (h : a.Standing)
    (ht : ∀ r, a.rendezvous = some r → r.progress ≠ .ended →
      ∀ g, (g, .turn .timedOut) ∉ noticed a.queue)
    (hm : a.Moves mv marks b) :
    ∀ c ∈ marks.filterMap Mark.callback?, c.report.outcome ≠ .timeout := by
  cases hm with
  | step hs =>
    obtain ⟨a', r', out, hstride, hb⟩ := stride_of_stepWithin? h hs
    obtain ⟨-, rfl⟩ := Prod.ext_iff.1 hb
    intro c hc hout
    obtain ⟨o, ho, hoc⟩ := outcome_of_callback hc
    rw [hout] at hoc
    cases hstride with
    | first _ _ _ _ _ _ hpass => cases Rendezvous.timeout_of_passage hpass ho hoc
    | @later r _ n queue _ hr _ hp hq _ hpass =>
      have hn := Rendezvous.Cause.notice.inj (Rendezvous.timeout_of_passage hpass ho hoc)
      refine ht r hr (by simp [hp]) r.generation ?_
      rw [hq, hn]
      exact List.mem_cons_self
  | _ => simp

/-- Until an agent has played a turn, an empty first wait has no end: no watch of it
has a deadline, time running out is never reported, and what the agent waits for goes on
until the turn comes, the match ends or goes away, the service ends or the owner lets
go.  A wait after a turn always has a deadline, which is the usual wait with its random
shift from the moment at which it began, whether or not the usual wait is empty. -/
theorem empty_first_wait_has_no_end {role : Role} {timing : Timing} {t : List Stage} {b : Agent}
    (h : Run (ofRole role timing) t b) :
    (timing.firstTurnWait.isZero = true → plays t = [] →
      (∀ c ∈ callbacks t, c.report.outcome ≠ .timeout) ∧
      (b.phase = .waitingForTurn →
        (∀ i g w, b.task? i = some ⟨g, .awaitTurn w⟩ → w.deadline = none) ∧
        ∀ mv marks c, b.Moves mv marks c →
          (c.phase = .waitingForTurn ∧ marks = []) ∨
            ∃ n, Stage.handles? ⟨b, mv, marks, c⟩ = some n ∧ n.EndsWait)) ∧
    (plays t ≠ [] → b.phase = .waitingForTurn →
      ∀ i g w, b.task? i = some ⟨g, .awaitTurn w⟩ → ∃ armed words, w.deadline =
        some (armed + (Jitter.spread timing.defaultTurnWait timing.jitterMax words).1.nanos)) := by
  refine ⟨fun hz hplays => ⟨?_, ?_⟩, ?_⟩
  · induction h with
    | nil => simp [callbacks]
    | @snoc t a c mv marks hrun hm ih =>
      rw [plays_snoc, List.append_eq_nil_iff] at hplays
      rw [callbacks_snoc, List.forall_mem_append]
      refine ⟨ih hplays.1, not_timeout_of_moves hrun.aimed.1 ?_ hm⟩
      exact fun r hr hu => hrun.not_timedOut hz hplays.1 hr hu
  · intro hw
    obtain ⟨r, hr, hp, -, -⟩ := onDuty_of_waiting h.aimed.1 hw
    have hu : r.progress ≠ .ended := by simp [hp]
    refine ⟨?_, ?_⟩
    · intro i g w ht
      obtain ⟨armed, hd⟩ := h.timed hr hu ht
      rw [h.oldData_of_unplayed hplays hr hu] at hd
      simpa only [Duration.limit?, hz, if_true, Option.map_none] using hd
    · intro mv marks c hm
      exact waits_or_handles h.aimed.1 hw (h.not_timedOut hz hplays hr hu) hm
  · intro hplays hw i g w ht
    obtain ⟨r, hr, hp, -, -⟩ := onDuty_of_waiting h.aimed.1 hw
    have hu : r.progress ≠ .ended := by simp [hp]
    obtain ⟨armed, hd⟩ := h.timed hr hu ht
    obtain ⟨p, hold⟩ := h.oldData_of_played hplays hr hu
    rw [hold] at hd
    obtain ⟨words, hd⟩ := hd
    exact ⟨armed, words, hd⟩

/-- A client that waits for its first turn, and one that waits for the second. -/
theorem empty_first_wait_has_no_end_for_a_client :
    let timing : Timing := { firstTurnWait := .zero, jitterMax := .zero }
    (∃ t b, Run (ofRole (.client none) timing) t b ∧ b.phase = .waitingForTurn ∧ plays t = [] ∧
      (b.task? 0).isSome = true ∧
      ∀ i g w, b.task? i = some ⟨g, .awaitTurn w⟩ → w.deadline = none) ∧
    ∃ t b, Run (ofRole (.client none) timing) t b ∧ b.phase = .waitingForTurn ∧
      (plays t).length = 1 ∧ (b.task? 1).isSome = true ∧
      ∀ i g w, b.task? i = some ⟨g, .awaitTurn w⟩ → w.deadline ≠ none := by
  intro timing
  let theirs : Match :=
    { id := ⟨"m"⟩, status := .active, turn := .theirs, participants := [⟨"ann"⟩, ⟨"bob"⟩]
      creator := ⟨"bob"⟩, viewer := ⟨"ann"⟩, data := none, version := 0 }
  let mine : Match := { theirs with turn := .mine }
  let s : Surroundings := { now := 0, position := 0 }
  refine ⟨?_, ?_⟩
  · have started := Run.nil.snoc (.start (a := ofRole (.client none) timing) (s := true)
      (m := theirs) (n := 0) rfl)
    have run := started.snoc (.step (s := s) (w := []) rfl)
    exact ⟨_, _, run, rfl, rfl, rfl,
      (((empty_first_wait_has_no_end run).1 rfl rfl).2 rfl).1⟩
  · have started := Run.nil.snoc (.start (a := ofRole (.client none) timing) (s := true)
      (m := mine) (n := 0) rfl)
    have played := started.snoc (.step (s := s) (w := []) rfl)
    have issued := played.snoc (.goOn (i := 0) rfl rfl)
    have accepted := issued.snoc (.finish (i := 0) (e := .submitted (.ok ())) rfl rfl)
    have run := accepted.snoc (.step (s := s) (w := []) rfl)
    refine ⟨_, _, run, rfl, rfl, rfl, ?_⟩
    intro i g w ht
    obtain ⟨armed, words, hd⟩ :=
      (empty_first_wait_has_no_end run).2 (List.cons_ne_nil _ _) rfl i g w ht
    simp [hd]

/-- With no limit on any wait, a client that has passed an empty match on tells its
owner that time ran out. -/
theorem empty_later_wait_runs_out :
    let timing : Timing :=
      { firstTurnWait := .zero, defaultTurnWait := .zero, jitterMax := .zero }
    ∃ t b, Run (ofRole (.client none) timing) t b ∧ (plays t).length = 1 ∧
      (callbacks t).map (·.report.outcome) = [.timeout] := by
  intro timing
  let mine : Match :=
    { id := ⟨"m"⟩, status := .active, turn := .mine, participants := [⟨"ann"⟩, ⟨"bob"⟩]
      creator := ⟨"bob"⟩, viewer := ⟨"ann"⟩, data := none, version := 0 }
  let news : Feed MatchNews := { capacity := 64 }
  let s : Surroundings := { now := 5, position := 0 }
  have started := Run.nil.snoc (.start (a := ofRole (.client none) timing) (s := true)
    (m := mine) (n := 0) rfl)
  have played := started.snoc (.step (s := s) (w := []) rfl)
  have issued := played.snoc (.goOn (i := 0) rfl rfl)
  have accepted := issued.snoc (.finish (i := 0) (e := .submitted (.ok ())) rfl rfl)
  have waiting := accepted.snoc (.step (s := s) (w := []) rfl)
  have elapsed := waiting.snoc (.finish (i := 1) (e := .turn .timedOut) rfl ⟨news, 5, rfl⟩)
  have run := elapsed.snoc (.step (s := s) (w := []) rfl)
  exact ⟨_, _, run, rfl, rfl⟩

end Agent

end TurnRendezvous
