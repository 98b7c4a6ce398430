/-
# `Agent.Engaged` — what goes on around a rendezvous, and what can move it on

Each way of starting background work counts the generation up at a moment of its
own, and the work ends when it likes.  Were the count off by one anywhere, the
only notice that matters would be dropped, and the agent would hang for ever.
That it is not off follows from `Rendezvous.OnDuty`; here this is read as what
the owner of an agent has of it.

* `working_eq_running`: until the end all work that still goes on can deliver;
* `patient_of_moves`: a turn wait without a deadline is one that was configured;
* `engaged_until_ended`: at any time of any run there is just the work that the
  phase stands for, and something that moves the rendezvous on.
-/
import TurnRendezvous.Proofs.Agent.Submissions

namespace TurnRendezvous

/-! ## Waits without an end -/

/-- Whether work waits for a turn without a deadline. -/
def Work.isEndless : Work → Bool
  | .awaitTurn w => w.deadline.isNone
  | _ => false

theorem Work.MayBecome.isEndless_eq {w w' : Work} (h : w.MayBecome w') :
    w'.isEndless = w.isEndless :=
  h.get_eq (fun _ _ => rfl) (fun _ _ => rfl) (fun _ _ => rfl) fun _ _ _ => rfl

/-- Whatever the news, a watch has ended when its deadline has come. -/
theorem TurnWatch.result?_isSome_of_due {w : TurnWatch} {due now : Instant}
    (hw : w.deadline = some due) (hn : due ≤ now) (feed : Feed MatchNews) :
    (w.result? feed now).isSome = true := by
  have ho : w.isOverdue now = true := by simp [isOverdue, hw, hn]
  unfold result?
  split
  · rfl
  · rw [if_pos ho]
    split <;> rfl

namespace Rendezvous

/-- The background work that still goes on, whether or not it can deliver. -/
def working (r : Rendezvous) : List Task := (r.jobs.jobs.filter Job.isWorking).map Job.work

/-- Only a match whose first turn may take any time is waited for without end. -/
def Patient (r : Rendezvous) : Prop :=
  ∀ j ∈ r.jobs.jobs, j.work.work.isEndless = true → r.timing.firstTurnWait.limit? = none

theorem working_eq_running {r : Rendezvous} (ha : r.AllOpen) : r.working = r.jobs.running := by
  unfold working Registry.running
  congr 1
  refine List.filter_congr ?_
  intro j hj
  cases hw : j.isWorking with
  | false => simp [Job.mayDeliver, hw]
  | true => exact (ha j hj hw).symm

theorem patient_modify {r : Rendezvous} (h : r.Patient) (i : JobId) {f : Job Task → Job Task}
    (hf : ∀ j, r.jobs.get? i = some j → (f j).work.work.isEndless = j.work.work.isEndless) :
    (r.withJobs (r.jobs.modify i f)).Patient := by
  refine Registry.forall_modify
    (P := fun j : Job Task => j.work.work.isEndless = true →
      r.timing.firstTurnWait.limit? = none) h i ?_
  intro j hj hp
  rw [hf j hj]
  exact hp

/-- A rendezvous with the old jobs and one more. -/
theorem patient_append {r r' : Rendezvous} (h : r.Patient) (ht : r'.timing = r.timing)
    (ts : List Task) (hjobs : r'.jobs.jobs = r.jobs.jobs ++ ts.map (fun t => { work := t }))
    (hts : ∀ t ∈ ts, t.work.isEndless = true → r.timing.firstTurnWait.limit? = none) :
    r'.Patient := by
  intro j hj he
  rw [ht]
  rw [hjobs] at hj
  rcases List.mem_append.1 hj with hj | hj
  · exact h j hj he
  · obtain ⟨t, htm, rfl⟩ := List.mem_map.1 hj
    exact hts t htm he

theorem patient_leave {r : Rendezvous} (h : r.Patient) : r.leave.Patient := by
  refine jobs_leave (P := fun g => ∀ j ∈ g.jobs, j.work.work.isEndless = true →
    r.timing.firstTurnWait.limit? = none) h ?_ ?_
  · intro g i hg
    refine Registry.forall_modify hg i ?_
    intro j _ hj
    unfold Job.cancel
    split <;> exact hj
  · intro g i hg
    exact Registry.forall_modify (f := Job.abandon) hg i fun j _ hj => hj

theorem patient_of_played {r r' : Rendezvous} {m : Match} {position : Nat} {out : List Output}
    (h : r.Played m position r' out) (hp : r.Patient) : r'.Patient := by
  cases h with
  | refused => exact patient_leave hp
  | @handed d =>
    exact patient_append hp rfl [⟨r.generation + 1, .submit d.data.encode m.opponent? false⟩]
      rfl (by simp [Work.isEndless])

theorem patient_of_passage {s : Surroundings} {r r' : Rendezvous} {cause : Cause}
    {out : List Output} (h : r.Passage s cause r' out) (hp : r.Patient) : r'.Patient := by
  cases h with
  | firstTurn _ hplay => exact patient_of_played hplay hp
  | firstWait =>
    refine patient_append hp rfl [_] rfl ?_
    simp [Work.isEndless, TurnWatch.arm]
  | laterTurn _ hplay => exact patient_of_played hplay hp
  | passedOn =>
    refine patient_append hp rfl [_] rfl ?_
    simp [Work.isEndless, TurnWatch.arm]
  | stayed => exact patient_append hp rfl [_] rfl (by simp [Work.isEndless])
  | @verifies p localId text _ _ _ hrole =>
    refine patient_append hp ?_ [⟨r.generation + 1, .probe text localId none⟩,
      ⟨r.generation + 1, .timer (s.now + r.timing.probeTimeout.nanos)⟩] ?_ ?_
    · simp [verify, hrole, watch, enter]
    · simp [verify, hrole, watch, enter, Registry.spawn]
    · simp [Work.isEndless]
  | tooLate => exact patient_leave (r := { r with progress := .underway }) hp
  | turnRefused => exact patient_leave (r := { r with submission := none }) hp
  | succeeded => exact patient_leave (r := { r with submission := none, pending := none }) hp
  | _ => exact patient_leave hp

/-! ## What a phase waits for -/

/-- What work can be waited for by a role with a timing: an answer of the service, a
clock that was set, or something for which it was configured to wait without end. -/
inductive Awaits (role : Role) (timing : Timing) : Work → Prop
  | answer {data : Bytes} {next : Option PlayerId} {issued : Bool} :
      Awaits role timing (.submit data next issued)
  | turnInTime {w : TurnWatch} {due : Instant} :
      w.deadline = some due →
      (∀ feed now, due ≤ now → (w.result? feed now).isSome = true) →
      Awaits role timing (.awaitTurn w)
  | anyTurn {w : TurnWatch} :
      w.deadline = none → timing.firstTurnWait.limit? = none → Awaits role timing (.awaitTurn w)
  | clock {due : Instant} : Awaits role timing (.timer due)
  | departure {w : EndWatch} :
      timing.dismissOnFinish.getD role.leavesByDefault = false →
      Awaits role timing (.awaitEnd w)

end Rendezvous

namespace Agent

theorem patient_of_moves {a b : Agent} {mv : Move} {marks : List Mark} (h : a.Standing)
    (hp : ∀ r, a.rendezvous = some r → r.Patient) (hm : a.Moves mv marks b) :
    ∀ r, b.rendezvous = some r → r.Patient := by
  cases hm with
  | start hs =>
    obtain ⟨-, -, role, -, rfl⟩ := start_of_standing h hs
    rintro r ⟨⟩
    exact List.forall_mem_nil _
  | owner c =>
    intro r hr
    exact hp r ((sameWork_call a c).rendezvous ▸ hr)
  | @step _ _ s within hs =>
    obtain ⟨a', r', out, hstride, hb⟩ := stride_of_stepWithin? h hs
    obtain ⟨rfl, -⟩ := Prod.ext_iff.1 hb
    intro q hq
    have hr' := (sameWork_absorbWithin within a' r' out).rendezvous
    obtain rfl := Option.some.inj (hr'.symm.trans hq)
    cases hstride with
    | first hr _ _ _ _ _ hpass => exact Rendezvous.patient_of_passage hpass (hp _ hr)
    | later hr _ _ _ _ hpass => exact Rendezvous.patient_of_passage hpass (hp _ hr)
  | @goOn i t work ht hb =>
    obtain ⟨r, j, hr, hj, -, rfl⟩ := exists_of_task? ht
    intro q hq
    obtain rfl := Option.some.inj ((rendezvous_progress hr i work).symm.trans hq)
    refine Rendezvous.patient_modify (hp r hr) i ?_
    intro j' hj'
    obtain rfl := Option.some.inj (hj.symm.trans hj')
    unfold Job.progress
    split
    · exact hb.isEndless_eq
    · rfl
  | @finish i t how ht =>
    obtain ⟨r, j, hr, -, -, -⟩ := exists_of_task? ht
    intro q hq
    obtain rfl := Option.some.inj ((rendezvous_complete hr ht how).symm.trans hq)
    exact Rendezvous.patient_modify (hp r hr) i fun j _ => by simp

theorem Run.patient {role : Role} {timing : Timing} {t : List Stage} {b : Agent}
    (h : Run (ofRole role timing) t b) : ∀ r, b.rendezvous = some r → r.Patient := by
  induction h with
  | nil => simp [ofRole]
  | snoc hrun hm ih => exact patient_of_moves hrun.aimed.1 ih hm

/-! ## An agent at work -/

/-- What goes on around a rendezvous that is under way. -/
structure Engaged (role : Role) (timing : Timing) (a : Agent) (r : Rendezvous) : Prop where
  phase : r.phase.activities ≠ []
  /-- What the phase stands for goes on or has its end in the queue, and nothing else. -/
  activities :
    (r.working.map (·.work.activity) ++ (noticed a.queue).map (·.2.activity)).Perm
      r.phase.activities
  working_current : ∀ t ∈ r.working, t.generation = r.generation
  noticed_current : ∀ n ∈ noticed a.queue, n.1 = r.generation
  /-- However a task ends, its notice will not be stale. -/
  delivers : ∀ i t, a.task? i = some t →
    ∀ how, (a.complete i how).queue = a.queue ++ [.done r.generation how]
  /-- A turn on its way has its continuation, and only one that verifies peers has
  a peer verified. -/
  pending : r.phase = .processingTurn →
    ∃ p, r.pending = some p ∧
      ∀ invite, p.signal = some (.verifyPeer invite) → r.role.verifies = true
  /-- The rendezvous can make a step, or will be able to. -/
  moves : (∀ s, (a.next? s).isSome = true) ∨
    ∃ i t, a.task? i = some t ∧ Rendezvous.Awaits role timing t.work ∧
      ∀ how s, ((a.complete i how).next? s).isSome = true

/-- A rendezvous under way takes the notices that are there. -/
theorem next?_isSome {a : Agent} {r : Rendezvous} (hr : a.rendezvous = some r)
    (hp : r.progress = .underway) (hq : a.queue ≠ []) (s : Surroundings) :
    (a.next? s).isSome = true := by
  cases h : a.queue with
  | nil => exact absurd h hq
  | cons n queue => simp [next?, hr, hp, h]

/-- A task that can deliver is at work. -/
theorem exists_task?_of_running {a : Agent} {r : Rendezvous} {t : Task}
    (hr : a.rendezvous = some r) (ht : t ∈ r.jobs.running) : ∃ i, a.task? i = some t := by
  obtain ⟨i, j, hj, hd, rfl⟩ := Registry.mem_running.1 ht
  have hw : j.isWorking = true := (Bool.and_eq_true_iff.1 hd).1
  exact ⟨i, by simp [task?, hr, hj, hw]⟩

/-- Until the end the notice of every task gets through. -/
theorem queue_complete {a : Agent} {r : Rendezvous} (hr : a.rendezvous = some r)
    (ha : r.AllOpen) {i : JobId} {t : Task} (ht : a.task? i = some t) (how : TaskEnd) :
    (a.complete i how).queue = a.queue ++ [.done t.generation how] := by
  obtain ⟨q, j, hq, hj, hw, rfl⟩ := exists_of_task? ht
  obtain rfl := Option.some.inj (hr.symm.trans hq)
  have hd := ha j (List.mem_of_getElem? hj) hw
  have hc : (r.jobs.complete i).1 = true := by simp [Registry.complete, hj, Job.fst_complete, hd]
  rw [complete_eq hr ht how, hc]
  rfl

/-- Whoever has its peer verified is one that verifies. -/
theorem verifies_of_due {role : Role} {old : Option Payload} {wait : Patience}
    {signal : Option Signal} (h : Rendezvous.Due role old wait signal) {invite : String}
    (hs : signal = some (.verifyPeer invite)) : role.verifies = true := by
  cases h with
  | suspected => rfl
  | _ => simp at hs

section OnDuty
variable {role : Role} {timing : Timing} {t : List Stage} {a : Agent} {r : Rendezvous}
  (hr : a.rendezvous = some r) (hd : r.OnDuty a.queue)
include hr hd

/-- With no notice there is a task for everything that the phase stands for. -/
theorem exists_task?_of_activity (hq : a.queue = []) (act : Activity)
    (ha : act ∈ r.phase.activities) :
    ∃ i t, a.task? i = some t ∧ t ∈ r.jobs.running ∧ t.work.activity = act := by
  have hp := hd.activities
  simp only [hq, noticed, List.map_nil, List.append_nil] at hp
  obtain ⟨t, ht, hact⟩ := List.mem_map.1 (hp.symm.subset ha)
  obtain ⟨i, hi⟩ := exists_task?_of_running hr ht
  exact ⟨i, t, hi, ht, hact⟩

/-- In every phase there is something that is waited for with good reason. -/
theorem exists_awaited (hq : a.queue = []) (haim : Aimed role timing t a) (hpat : r.Patient) :
    ∃ i task, a.task? i = some task ∧ Rendezvous.Awaits role timing task.work := by
  obtain ⟨-, htiming, hdis, -⟩ := haim.started r hr
  have hc := hd.course
  unfold Rendezvous.Course at hc
  cases hphase : r.phase with
  | waitingForTurn =>
    obtain ⟨i, task, hi, hrun, hact⟩ :=
      exists_task?_of_activity hr hd hq .turnWait (by simp [hphase, Phase.activities])
    refine ⟨i, task, hi, ?_⟩
    obtain ⟨k, j, hk, -, rfl⟩ := Registry.mem_running.1 hrun
    have hj := hpat j (List.mem_of_getElem? hk)
    cases hw : j.work.work with
    | awaitTurn w =>
      cases hdue : w.deadline with
      | none =>
        exact .anyTurn hdue (htiming ▸ hj (by simp [hw, Work.isEndless, hdue]))
      | some due => exact .turnInTime hdue fun feed _ h => w.result?_isSome_of_due hdue h feed
    | _ => simp [hw, Work.activity] at hact
  | processingTurn =>
    obtain ⟨i, task, hi, -, hact⟩ :=
      exists_task?_of_activity hr hd hq .submission (by simp [hphase, Phase.activities])
    refine ⟨i, task, hi, ?_⟩
    cases hw : task.work with
    | submit => exact .answer
    | _ => simp [hw, Work.activity] at hact
  | verifying =>
    -- the probe may never answer, but the timer beside it goes off
    obtain ⟨i, task, hi, -, hact⟩ :=
      exists_task?_of_activity hr hd hq .timer (by simp [hphase, Phase.activities])
    refine ⟨i, task, hi, ?_⟩
    cases hw : task.work with
    | timer => exact .clock
    | _ => simp [hw, Work.activity] at hact
  | monitoring =>
    obtain ⟨i, task, hi, -, hact⟩ :=
      exists_task?_of_activity hr hd hq .endWatch (by simp [hphase, Phase.activities])
    refine ⟨i, task, hi, ?_⟩
    simp only [hphase] at hc
    cases hw : task.work with
    | awaitEnd => exact .departure (hdis.symm.trans hc.2)
    | _ => simp [hw, Work.activity] at hact
  | idle => simp [hphase] at hc
  | finished => simp [hphase] at hc

theorem engaged_of_onDuty (hp : r.progress = .underway) (haim : Aimed role timing t a)
    (hopen : r.AllOpen) (hpat : r.Patient) : Engaged role timing a r := by
  have hw := Rendezvous.working_eq_running hopen
  have hdel : ∀ i t, a.task? i = some t →
      ∀ how, (a.complete i how).queue = a.queue ++ [.done r.generation how] := by
    intro i t ht how
    obtain ⟨q, j, hq, hj, hjw, rfl⟩ := exists_of_task? ht
    obtain rfl := Option.some.inj (hr.symm.trans hq)
    rw [queue_complete hr hopen ht how, hd.running_current j.work
      (Registry.mem_running.2 ⟨i, j, hj, hopen j (List.mem_of_getElem? hj) hjw, rfl⟩)]
  refine
    { phase := ?_, activities := hw ▸ hd.activities, working_current := hw ▸ hd.running_current
      noticed_current := hd.noticed_current, delivers := hdel, pending := ?_, moves := ?_ }
  · have hc := hd.course
    unfold Rendezvous.Course at hc
    cases hphase : r.phase <;> simp [hphase, Phase.activities] at hc ⊢
  · intro hphase
    have hc := hd.course
    simp only [Rendezvous.Course, hphase] at hc
    obtain ⟨p, hpend, hdue⟩ := hc
    exact ⟨p, hpend, fun _ => verifies_of_due hdue⟩
  · by_cases hq : a.queue = []
    · obtain ⟨i, task, hi, haw⟩ := exists_awaited hr hd hq haim hpat
      refine .inr ⟨i, task, hi, haw, ?_⟩
      intro how s
      exact next?_isSome (rendezvous_complete hr hi how) hp (by simp [hdel i task hi how]) s
    · exact .inl (next?_isSome hr hp hq)

end OnDuty

/-- Whatever the service does and in whatever order tasks go on, an agent that was
started and is not over is about to look at its snapshot, with nothing else
going on, or it is engaged: just that goes on, or has ended and is about to be
noticed, that its phase stands for, all of the current generation, and there is
something that moves it on, if only the end of a wait that it was configured for. -/
theorem engaged_until_ended {role : Role} {timing : Timing} {t : List Stage} {b : Agent}
    {r : Rendezvous} (h : Run (ofRole role timing) t b) (hr : b.rendezvous = some r)
    (hp : r.progress ≠ .ended) :
    ((∃ m position, r.progress = .fresh m position) ∧ r.phase = .idle ∧ r.working = [] ∧
        noticed b.queue = [] ∧ ∀ s, (b.next? s).isSome = true) ∨
      (r.progress = .underway ∧ Engaged role timing b r) := by
  obtain ⟨hst, haim⟩ := h.aimed
  cases hst with
  | unstarted hr' => simp [hr'] at hr
  | @fresh q m position hr' _ hq hphase _ hjobs hn =>
    obtain rfl := Option.some.inj (hr'.symm.trans hr)
    refine .inl ⟨⟨m, position, hq⟩, hphase, by simp [Rendezvous.working, hjobs], hn, ?_⟩
    intro s
    simp [next?, hr, hq]
  | driving hr' _ hq hd =>
    obtain rfl := Option.some.inj (hr'.symm.trans hr)
    exact .inr ⟨hq, engaged_of_onDuty hr hd hq haim (h.loaded.allOpen _ hr hp) (h.patient _ hr)⟩
  | ended hr' _ ho =>
    obtain rfl := Option.some.inj (hr'.symm.trans hr)
    exact absurd ho.progress hp

/-- An auto-match client that has its peer probed. -/
theorem engaged_until_ended_while_verifying :
    ∃ t b r, Run (ofRole (.autoClient "me" none) {}) t b ∧ b.rendezvous = some r ∧
      r.progress ≠ .ended ∧ r.phase = .verifying ∧ r.working.length = 2 ∧
      Engaged (.autoClient "me" none) {} b r := by
  let m : Match :=
    { id := ⟨"m"⟩, status := .active, turn := .mine, participants := [⟨"ann"⟩, ⟨"bob"⟩]
      creator := ⟨"bob"⟩, viewer := ⟨"ann"⟩, version := 1
      data := some (Payload.withInvite "x").encode }
  let s : Surroundings := { now := 0, position := 0 }
  have started := Run.nil.snoc (.start (a := ofRole (.autoClient "me" none) {}) (s := true)
    (m := m) (n := 0) rfl)
  have played := started.snoc (.step (s := s) (w := []) rfl)
  have issued := played.snoc (.goOn (i := 0) rfl rfl)
  have answered := issued.snoc (.finish (i := 0) (e := .submitted (.ok ())) rfl rfl)
  have run := answered.snoc (.step (s := s) (w := []) rfl)
  rcases engaged_until_ended run rfl nofun with ⟨⟨_, _, h⟩, -⟩ | ⟨-, h⟩
  · cases h
  · exact ⟨_, _, _, run, rfl, nofun, rfl, rfl, h⟩

end Agent

end TurnRendezvous
