/-
# `Agent.Standing` — where an agent stands

An agent was not started; or it was, and its rendezvous has not looked at its
snapshot yet; or the rendezvous is on duty; or it is over.  Every move keeps
an agent in one of these places, whatever the service answers and whenever
the owner lets go.

* `stride_of_next?`: the next step of a standing agent is a `Passage`;
* `standing_of_moves`: every move leads from a standing agent to one.
-/
import TurnRendezvous.Proofs.Agent.Passage
import TurnRendezvous.Proofs.Agent.Run

namespace TurnRendezvous

/-! ## Tasks that go on or come to their end -/

theorem Work.MayBecome.activity_eq {w w' : Work} (h : w.MayBecome w') :
    w'.activity = w.activity :=
  h.get_eq (fun _ _ => rfl) (fun _ _ => rfl) (fun _ _ => rfl) fun _ _ _ => rfl

theorem Work.MayEnd.activity_eq {w : Work} {how : TaskEnd} (h : w.MayEnd how) :
    how.activity = w.activity := by
  unfold Work.MayEnd at h
  split at h
  all_goals first | rfl | exact h.elim

namespace Rendezvous

/-- The rendezvous with other jobs. -/
def withJobs (r : Rendezvous) (jobs : Registry Task) : Rendezvous := { r with jobs }

/-- A change that lets no job begin leaves nothing behind at the end. -/
theorem kept_modify {r : Rendezvous} (h : r.Kept) (i : JobId) {f : Job Task → Job Task}
    (hf : ∀ j, (f j).mayDeliver = true → j.mayDeliver = true) :
    (r.withJobs (r.jobs.modify i f)).Kept := by
  intro k j hj hd
  simp only [withJobs, Registry.get?_modify] at hj
  by_cases hk : i = k
  · obtain ⟨j', hj', rfl⟩ := Option.map_eq_some_iff.1 (by simpa [hk] using hj)
    exact h k j' hj' (hf j' hd)
  · rw [if_neg hk] at hj
    exact h k j hj hd

/-- A task goes on. -/
theorem onDuty_progress {r : Rendezvous} {queue : List Notice} (h : r.OnDuty queue) {i : JobId}
    {j : Job Task} (hj : r.jobs.get? i = some j) {work : Work} (hb : j.work.work.MayBecome work) :
    (r.withJobs (r.jobs.modify i (·.progress ({ · with work })))).OnDuty queue := by
  have hk := kept_modify h.kept i (f := (·.progress ({ · with work }))) (by simp)
  cases hd : j.mayDeliver with
  | false =>
    have hr : (r.jobs.modify i (·.progress ({ · with work }))).running = r.jobs.running :=
      Registry.running_modify_silent hj hd (by simp [hd])
    exact ⟨by simpa [withJobs, hr] using h.activities,
      by simpa [withJobs, hr] using h.running_current, h.noticed_current, hk, h.course⟩
  | true =>
    obtain ⟨before, after, hr, hr'⟩ := Registry.running_progress hj hd ({ · with work })
    refine ⟨?_, ?_, h.noticed_current, hk, h.course⟩
    · simpa [withJobs, hr, hr', hb.activity_eq] using h.activities
    · have hc := h.running_current
      simp only [withJobs, hr, hr', List.forall_mem_append, List.forall_mem_cons] at hc ⊢
      exact hc

/-- A task comes to its end, and its notice joins the queue if it gets through. -/
theorem onDuty_complete {r : Rendezvous} {queue : List Notice} (h : r.OnDuty queue) {i : JobId}
    {j : Job Task} (hj : r.jobs.get? i = some j) {how : TaskEnd} (he : j.work.work.MayEnd how) :
    (r.withJobs (r.jobs.complete i).2).OnDuty
      (if (r.jobs.complete i).1 then queue ++ [.done j.work.generation how] else queue) := by
  have hk := kept_modify h.kept i (f := (·.complete.2)) (by simp)
  have hfst : (r.jobs.complete i).1 = j.mayDeliver := by
    simp [Registry.complete, hj, Job.fst_complete]
  rw [hfst]
  cases hd : j.mayDeliver with
  | false =>
    have hr : (r.jobs.complete i).2.running = r.jobs.running :=
      Registry.running_modify_silent hj hd (by simp)
    simp only [Bool.false_eq_true, if_false]
    exact ⟨by simpa [withJobs, hr] using h.activities,
      by simpa [withJobs, hr] using h.running_current, h.noticed_current, hk, h.course⟩
  | true =>
    have hr : r.jobs.running.Perm (j.work :: (r.jobs.complete i).2.running) :=
      Registry.running_modify_perm hj hd (by simp)
    have hg : j.work.generation = r.generation :=
      h.running_current _ (hr.symm.subset List.mem_cons_self)
    have hq : noticed (queue ++ [.done j.work.generation how]) =
        noticed queue ++ [(j.work.generation, how)] := noticed_append _ _
    refine ⟨?_, ?_, ?_, hk, h.course⟩
    · -- the activity moves from the running tasks to the notices
      have hp := ((hr.map (·.work.activity)).append_right
        ((noticed queue).map (·.2.activity))).symm.trans h.activities
      refine List.Perm.trans ?_ hp
      simp only [withJobs, if_true, hq, List.map_append, List.map_cons, List.map_nil,
        he.activity_eq, ← List.append_assoc]
      exact (List.perm_append_singleton _ _).trans (by rw [List.cons_append])
    · exact fun t ht => h.running_current t (hr.symm.subset (List.mem_cons_of_mem _ ht))
    · intro n hn
      simp only [if_true, hq, List.mem_append, List.mem_singleton] at hn
      rcases hn with hn | rfl
      · exact h.noticed_current n hn
      · exact hg

theorem over_modify {r : Rendezvous} (h : r.Over) (i : JobId) {f : Job Task → Job Task}
    (hf : ∀ j, (f j).mayDeliver = true → j.mayDeliver = true) :
    (r.withJobs (r.jobs.modify i f)).Over :=
  ⟨h.progress, h.phase, Registry.running_modify_nil h.silent i hf⟩

/-- Only the ends of tasks in a queue matter. -/
theorem OnDuty.congr {r : Rendezvous} {q q' : List Notice} (h : r.OnDuty q)
    (hq : noticed q' = noticed q) : r.OnDuty q' :=
  ⟨hq ▸ h.activities, h.running_current, hq ▸ h.noticed_current, h.kept, h.course⟩

end Rendezvous

namespace Agent

/-! ## What lets nothing go on or end -/

/-- Two agents that differ in their gates and in what only the owner changes. -/
structure SameWork (a b : Agent) : Prop where
  rendezvous : b.rendezvous = a.rendezvous
  role : b.role = a.role
  timing : b.timing = a.timing
  noticed : noticed b.queue = noticed a.queue

theorem SameWork.refl (a : Agent) : a.SameWork a := ⟨rfl, rfl, rfl, rfl⟩

theorem SameWork.trans {a b c : Agent} (h : a.SameWork b) (h' : b.SameWork c) : a.SameWork c :=
  ⟨h'.rendezvous.trans h.rendezvous, h'.role.trans h.role, h'.timing.trans h.timing,
    h'.noticed.trans h.noticed⟩

theorem sameWork_detach (a : Agent) : a.SameWork a.detach := by
  refine ⟨rfl, rfl, rfl, ?_⟩
  simp only [detach]
  split
  · simp [noticed_append, TurnRendezvous.noticed]
  · rfl

theorem sameWork_call (a : Agent) (c : OwnerCall) : a.SameWork (a.call c) := by
  cases c with
  | detach => exact sameWork_detach a
  | giveUp => exact (sameWork_detach a).trans ⟨rfl, rfl, rfl, rfl⟩

theorem sameWork_calls (cs : List OwnerCall) : ∀ a : Agent, a.SameWork (cs.foldl call a) := by
  induction cs with
  | nil => exact SameWork.refl
  | cons c cs ih => exact fun a => (sameWork_call a c).trans (ih _)

theorem sameWork_emit (within : List OwnerCall) (id : MatchId) (a : Agent) (o : Output) :
    a.SameWork (a.emit within id o).1 := by
  simp only [emit]
  split
  · exact SameWork.trans (b := { a with gate := (output id a.gate o).2 })
      ⟨rfl, rfl, rfl, rfl⟩ (sameWork_calls within _)
  · exact ⟨rfl, rfl, rfl, rfl⟩

theorem sameWork_emitAll (within : List OwnerCall) (id : MatchId) (out : List Output) :
    ∀ a : Agent, a.SameWork (a.emitAll within id out).1 := by
  induction out with
  | nil => exact SameWork.refl
  | cons o out ih => exact fun a => (sameWork_emit within id a o).trans (ih _)

/-- What a step leaves behind, apart from the gate and what the owner does. -/
theorem sameWork_absorbWithin (within : List OwnerCall) (a : Agent) (r : Rendezvous)
    (out : List Output) :
    SameWork { a with rendezvous := some r } (a.absorbWithin within (r, out)).1 :=
  (sameWork_emitAll within r.matchId out _).trans ⟨rfl, rfl, rfl, rfl⟩

/-! ## Where an agent can stand -/

/-- Where an agent stands. -/
inductive Standing (a : Agent) : Prop
  | unstarted : a.rendezvous = none → noticed a.queue = [] → Standing a
  | fresh {r : Rendezvous} {m : Match} {position : Nat} :
      a.rendezvous = some r → a.role = none → r.progress = .fresh m position →
      r.phase = .idle → r.oldData = none → r.jobs = {} → noticed a.queue = [] → Standing a
  | driving {r : Rendezvous} :
      a.rendezvous = some r → a.role = none → r.progress = .underway → r.OnDuty a.queue →
      Standing a
  | ended {r : Rendezvous} : a.rendezvous = some r → a.role = none → r.Over → Standing a

theorem standing_ofRole (role : Role) (timing : Timing) : (ofRole role timing).Standing :=
  .unstarted rfl rfl

theorem Standing.congr {a b : Agent} (h : a.Standing) (hs : a.SameWork b) : b.Standing := by
  obtain ⟨hr, hrole, -, hq⟩ := hs
  cases h with
  | unstarted h₁ h₂ => exact .unstarted (hr.trans h₁) (hq.trans h₂)
  | fresh h₁ h₂ h₃ h₄ h₅ h₆ h₇ =>
    exact .fresh (hr.trans h₁) (hrole.trans h₂) h₃ h₄ h₅ h₆ (hq.trans h₇)
  | driving h₁ h₂ h₃ h₄ => exact .driving (hr.trans h₁) (hrole.trans h₂) h₃ (h₄.congr hq)
  | ended h₁ h₂ h₃ => exact .ended (hr.trans h₁) (hrole.trans h₂) h₃

/-- Before the first step no task has ended. -/
theorem Standing.noticed_eq_nil {a : Agent} (h : a.Standing) {r : Rendezvous} {m : Match}
    {position : Nat} (hr : a.rendezvous = some r) (hp : r.progress = .fresh m position) :
    TurnRendezvous.noticed a.queue = [] := by
  cases h with
  | unstarted _ hq => exact hq
  | fresh _ _ _ _ _ _ hq => exact hq
  | driving hr' _ hp' => simp [← Option.some.inj (hr.symm.trans hr'), hp] at hp'
  | ended hr' _ ho =>
    obtain rfl := Option.some.inj (hr.symm.trans hr')
    exact absurd ho.progress (by simp [hp])

theorem standing_of_settled {a : Agent} {r : Rendezvous} (hr : a.rendezvous = some r)
    (hrole : a.role = none) (h : r.Settled a.queue) : a.Standing := by
  rcases h with h | ⟨hu, h⟩
  · exact .ended hr hrole h
  · exact .driving hr hrole hu h

/-! ## The next step -/

/-- What the next step of a standing agent is: the agent without the notice that
it takes, the rendezvous afterwards and its outputs. -/
inductive Stride (a : Agent) (s : Surroundings) : Agent → Rendezvous → List Output → Prop
  | first {r r' : Rendezvous} {m : Match} {position : Nat} {out : List Output} :
      a.rendezvous = some r → a.role = none → r.progress = .fresh m position →
      r.phase = .idle → r.oldData = none → r.jobs = {} →
      r.Passage s (.look m position) r' out → r'.Settled a.queue → Stride a s a r' out
  | later {r r' : Rendezvous} {n : Notice} {queue : List Notice} {out : List Output} :
      a.rendezvous = some r → a.role = none → r.progress = .underway → a.queue = n :: queue →
      r.OnDuty (n :: queue) → r.Passage s (.notice n) r' out → r'.Settled queue →
      Stride a s { a with queue } r' out

theorem stride_of_next? {a b : Agent} {s : Surroundings} {r' : Rendezvous} {out : List Output}
    (h : a.Standing) (hn : a.next? s = some (b, r', out)) : a.Stride s b r' out := by
  cases h with
  | unstarted hr => simp [next?, hr] at hn
  | @fresh r m position hr hrole hp hphase hold hjobs hq =>
    simp only [next?, hr, hp, Option.some.injEq, Prod.mk.injEq] at hn
    obtain ⟨rfl, hstep⟩ := hn
    obtain ⟨rfl, rfl⟩ := Prod.ext_iff.1 hstep
    have hpass := Rendezvous.passage_firstStep s r m position
    exact .first hr hrole hp hphase hold hjobs hpass
      (Rendezvous.settled_of_look (by simp [hjobs, Registry.running]) hq hold hpass)
  | @driving r hr hrole hp hd =>
    cases hq : a.queue with
    | nil => simp [next?, hr, hp, hq] at hn
    | cons n queue =>
      rw [hq] at hd
      simp only [next?, hr, hp, hq, Option.some.injEq, Prod.mk.injEq] at hn
      obtain ⟨rfl, hstep⟩ := hn
      obtain ⟨rfl, rfl⟩ := Prod.ext_iff.1 hstep
      have hpass := Rendezvous.passage_react (s := s) hd
      rw [← hr]
      exact .later hr hrole hp hq hd hpass (Rendezvous.settled_of_notice hp hd hpass)
  | @ended r hr hrole ho => simp [next?, hr, ho.progress] at hn

/-- What a step of a standing agent with calls in its callbacks is. -/
theorem stride_of_stepWithin? {a b : Agent} {s : Surroundings} {within : List OwnerCall}
    {marks : List Mark} (h : a.Standing) (hs : a.stepWithin? s within = some (b, marks)) :
    ∃ a' r' out, a.Stride s a' r' out ∧ a'.absorbWithin within (r', out) = (b, marks) := by
  obtain ⟨⟨a', r', out⟩, hn, hb⟩ := Option.map_eq_some_iff.1 hs
  exact ⟨a', r', out, stride_of_next? h hn, hb⟩

/-! ## Every move keeps an agent standing -/

theorem standing_of_stride {a b : Agent} {s : Surroundings} {r' : Rendezvous} {out : List Output}
    (h : a.Stride s b r' out) : ({ b with rendezvous := some r' } : Agent).Standing := by
  cases h with
  | first hr hrole _ _ _ _ _ hset => exact standing_of_settled rfl hrole hset
  | later hr hrole _ _ _ _ hset => exact standing_of_settled rfl hrole hset

/-- The job behind a task that is at work. -/
theorem exists_of_task? {a : Agent} {i : JobId} {t : Task} (h : a.task? i = some t) :
    ∃ r j, a.rendezvous = some r ∧ r.jobs.get? i = some j ∧ j.isWorking = true ∧ j.work = t := by
  cases hr : a.rendezvous with
  | none => simp [task?, hr] at h
  | some r =>
    cases hj : r.jobs.get? i with
    | none => simp [task?, hr, hj] at h
    | some j =>
      by_cases hw : j.isWorking = true
      · exact ⟨r, j, rfl, hj, hw, by simpa [task?, hr, hj, hw] using h⟩
      · simp [task?, hr, hj, hw] at h

theorem rendezvous_progress {a : Agent} {r : Rendezvous} (hr : a.rendezvous = some r) (i : JobId)
    (work : Work) : (a.progress i work).rendezvous =
      some (r.withJobs (r.jobs.modify i (·.progress ({ · with work })))) := by
  simp [progress, hr, Rendezvous.withJobs]

theorem complete_eq {a : Agent} {r : Rendezvous} {i : JobId} {t : Task}
    (hr : a.rendezvous = some r) (ht : a.task? i = some t) (how : TaskEnd) :
    a.complete i how =
      { a with
        rendezvous := some (r.withJobs (r.jobs.complete i).2)
        queue := if (r.jobs.complete i).1 then a.queue ++ [.done t.generation how]
          else a.queue } := by
  simp only [complete, hr, ht, Rendezvous.withJobs]

theorem rendezvous_complete {a : Agent} {r : Rendezvous} {i : JobId} {t : Task}
    (hr : a.rendezvous = some r) (ht : a.task? i = some t) (how : TaskEnd) :
    (a.complete i how).rendezvous = some (r.withJobs (r.jobs.complete i).2) := by
  rw [complete_eq hr ht how]

/-- A task that goes on is still at work. -/
theorem task?_progress {a : Agent} {i : JobId} {t : Task} (h : a.task? i = some t) (work : Work) :
    (a.progress i work).task? i = some { t with work } := by
  obtain ⟨r, j, hr, hj, hw, rfl⟩ := exists_of_task? h
  have hstage : j.stage = .working := by simpa [Job.isWorking] using hw
  have hj' : (r.jobs.modify i (·.progress ({ · with work }))).get? i =
      some { j with work := { j.work with work } } := by
    simp [Registry.get?_modify, hj, Job.progress, hstage]
  simp [task?, progress, hr, hj', Job.isWorking, hstage]

theorem standing_progress {a : Agent} (h : a.Standing) {i : JobId} {t : Task}
    (ht : a.task? i = some t) {work : Work} (hb : t.work.MayBecome work) :
    (a.progress i work).Standing := by
  obtain ⟨r, j, hr, hj, hw, rfl⟩ := exists_of_task? ht
  have hr' := rendezvous_progress hr i work
  cases h with
  | unstarted h₁ => simp [h₁] at hr
  | fresh h₁ _ _ _ _ hjobs =>
    obtain rfl := Option.some.inj (h₁.symm.trans hr)
    simp [hjobs, Registry.get?] at hj
  | driving h₁ hrole hp hd =>
    obtain rfl := Option.some.inj (h₁.symm.trans hr)
    exact .driving hr' hrole hp (Rendezvous.onDuty_progress hd hj hb)
  | ended h₁ hrole ho =>
    obtain rfl := Option.some.inj (h₁.symm.trans hr)
    exact .ended hr' hrole (Rendezvous.over_modify ho i (by simp))

theorem standing_complete {a : Agent} (h : a.Standing) {i : JobId} {t : Task}
    (ht : a.task? i = some t) {how : TaskEnd} (he : t.work.MayEnd how) :
    (a.complete i how).Standing := by
  obtain ⟨r, j, hr, hj, hw, rfl⟩ := exists_of_task? ht
  rw [complete_eq hr ht how]
  cases h with
  | unstarted h₁ => simp [h₁] at hr
  | fresh h₁ _ _ _ _ hjobs =>
    obtain rfl := Option.some.inj (h₁.symm.trans hr)
    simp [hjobs, Registry.get?] at hj
  | driving h₁ hrole hp hd =>
    obtain rfl := Option.some.inj (h₁.symm.trans hr)
    exact .driving rfl hrole hp (Rendezvous.onDuty_complete hd hj he)
  | ended h₁ hrole ho =>
    obtain rfl := Option.some.inj (h₁.symm.trans hr)
    exact .ended rfl hrole (Rendezvous.over_modify ho i (by simp))

/-- Only an agent that was not started is started. -/
theorem start_of_standing {a b : Agent} (h : a.Standing) {signedIn : Bool} {m : Match}
    {position : Nat} (hs : a.start? signedIn m position = some b) :
    a.rendezvous = none ∧ noticed a.queue = [] ∧ ∃ role, a.role = some role ∧
      b = { a with
        role := none
        matchId := some m.id
        attached := true
        rendezvous := some
          { matchId := m.id
            role
            timing := a.timing
            dismisses := a.timing.dismissOnFinish.getD role.leavesByDefault
            progress := .fresh m position } } := by
  cases hrole : a.role with
  | none => simp [start?, hrole] at hs
  | some role =>
    obtain ⟨-, rfl⟩ : signedIn = true ∧ _ = b := by simpa [start?, hrole] using hs
    cases h with
    | unstarted hr hq => exact ⟨hr, hq, role, rfl, rfl⟩
    | fresh _ h => simp [h] at hrole
    | driving _ h => simp [h] at hrole
    | ended _ h => simp [h] at hrole

theorem standing_of_moves {a b : Agent} {mv : Move} {marks : List Mark} (h : a.Standing)
    (hm : a.Moves mv marks b) : b.Standing := by
  cases hm with
  | start hs =>
    obtain ⟨-, hq, role, -, rfl⟩ := start_of_standing h hs
    exact .fresh rfl rfl rfl rfl rfl rfl hq
  | owner c => exact h.congr (sameWork_call a c)
  | step hs =>
    obtain ⟨a', r', out, hstride, hb⟩ := stride_of_stepWithin? h hs
    obtain ⟨rfl, -⟩ := Prod.ext_iff.1 hb
    exact (standing_of_stride hstride).congr (sameWork_absorbWithin _ a' r' out)
  | goOn ht hb => exact standing_progress h ht hb
  | finish ht he => exact standing_complete h ht he

theorem Run.standing {a b : Agent} {t : List Stage} (h : Run a t b) (hst : a.Standing) :
    b.Standing := by
  induction h with
  | nil => exact hst
  | snoc _ hm ih => exact standing_of_moves ih hm

/-! ## What an agent is for -/

/-- After a move other than a start: the same role and timing, and the same aim
of the rendezvous. -/
structure SameAim (a b : Agent) : Prop where
  role : b.role = a.role
  timing : b.timing = a.timing
  unstarted : a.rendezvous = none → b.rendezvous = none
  started : ∀ r, a.rendezvous = some r → ∃ r', b.rendezvous = some r' ∧ r.SameAim r'

theorem SameWork.sameAim {a b : Agent} (h : a.SameWork b) : a.SameAim b :=
  ⟨h.role, h.timing, fun hr => h.rendezvous.trans hr,
    fun r hr => ⟨r, h.rendezvous.trans hr, rfl, rfl, rfl, rfl⟩⟩

theorem sameAim_of_stride {a a' : Agent} {s : Surroundings} {r' : Rendezvous} {out : List Output}
    (h : a.Stride s a' r' out) (within : List OwnerCall) :
    a.SameAim (a'.absorbWithin within (r', out)).1 := by
  have hb := sameWork_absorbWithin within a' r' out
  cases h with
  | first hr _ _ _ _ _ hp =>
    exact ⟨hb.role, hb.timing, fun h => by simp [hr] at h,
      fun q hq => ⟨r', hb.rendezvous, by
        obtain rfl := Option.some.inj (hr.symm.trans hq)
        exact Rendezvous.sameAim_of_passage hp⟩⟩
  | later hr _ _ _ _ hp =>
    exact ⟨hb.role, hb.timing, fun h => by simp [hr] at h,
      fun q hq => ⟨r', hb.rendezvous, by
        obtain rfl := Option.some.inj (hr.symm.trans hq)
        exact Rendezvous.sameAim_of_passage hp⟩⟩

theorem sameAim_of_moves {a b : Agent} {mv : Move} {marks : List Mark} (h : a.Standing)
    (hm : a.Moves mv marks b) (hs : mv.startedOn? = none) : a.SameAim b := by
  cases hm with
  | start => simp [Move.startedOn?] at hs
  | owner c => exact (sameWork_call a c).sameAim
  | step hstep =>
    obtain ⟨a', r', out, hstride, hb⟩ := stride_of_stepWithin? h hstep
    obtain ⟨rfl, -⟩ := Prod.ext_iff.1 hb
    exact sameAim_of_stride hstride _
  | goOn ht =>
    obtain ⟨r, j, hr, -, -, -⟩ := exists_of_task? ht
    refine ⟨rfl, rfl, fun h => by simp [hr] at h, ?_⟩
    intro q hq
    exact ⟨_, congrArg (Option.map _) hq, rfl, rfl, rfl, rfl⟩
  | @finish i t how ht =>
    obtain ⟨r, j, hr, -, -, -⟩ := exists_of_task? ht
    rw [complete_eq hr ht how]
    refine ⟨rfl, rfl, fun h => by simp [hr] at h, ?_⟩
    intro q hq
    obtain rfl := Option.some.inj (hr.symm.trans hq)
    exact ⟨r.withJobs (r.jobs.complete i).2, rfl,
      rfl, rfl, rfl, rfl⟩

/-- A rendezvous goes on with its aim, since no other takes its place. -/
theorem heir_of_moves {a b : Agent} {mv : Move} {marks : List Mark} (h : a.Standing)
    (hm : a.Moves mv marks b) {r : Rendezvous} (hr : a.rendezvous = some r) :
    ∃ r', b.rendezvous = some r' ∧ r.SameAim r' := by
  cases hs : mv.startedOn? with
  | none => exact (sameAim_of_moves h hm hs).started r hr
  | some id =>
    cases hm with
    | start hb => simp [(start_of_standing h hb).1] at hr
    | _ => simp [Move.startedOn?] at hs

/-- What an agent was made with, and what it was started on. -/
structure Aimed (role : Role) (timing : Timing) (t : List Stage) (a : Agent) : Prop where
  unstarted : a.rendezvous = none → a.role = some role ∧ a.timing = timing ∧ startedOn t = []
  started : ∀ r, a.rendezvous = some r →
    startedOn t = [r.matchId] ∧ r.timing = timing ∧
      r.dismisses = timing.dismissOnFinish.getD role.leavesByDefault ∧ r.role.blank = role.blank

theorem aimed_snoc {role : Role} {timing : Timing} {t : List Stage} {a b : Agent} {mv : Move}
    {marks : List Mark} (h : a.Standing) (ha : Aimed role timing t a) (hm : a.Moves mv marks b) :
    Aimed role timing (t ++ [⟨a, mv, marks, b⟩]) b := by
  cases hmv : mv.startedOn? with
  | none =>
    obtain ⟨hrole, htiming, hun, hst⟩ := sameAim_of_moves h hm hmv
    constructor
    · intro hb
      cases hr : a.rendezvous with
      | none =>
        obtain ⟨h₁, h₂, h₃⟩ := ha.unstarted hr
        exact ⟨hrole.trans h₁, htiming.trans h₂, by simp [hmv, h₃]⟩
      | some r =>
        obtain ⟨r', hr', -⟩ := hst r hr
        simp [hb] at hr'
    · intro r' hb
      cases hr : a.rendezvous with
      | none => simp [hun hr] at hb
      | some r =>
        obtain ⟨r'', hr', haim⟩ := hst r hr
        obtain rfl := Option.some.inj (hr'.symm.trans hb)
        obtain ⟨h₁, h₂, h₃, h₄⟩ := ha.started r hr
        exact ⟨by simp [hmv, h₁, haim.matchId], haim.timing.trans h₂, haim.dismisses.trans h₃,
          haim.blank.trans h₄⟩
  | some id =>
    cases hm with
    | start hs =>
      obtain ⟨hr, -, role', hrole, rfl⟩ := start_of_standing h hs
      obtain ⟨h₁, h₂, h₃⟩ := ha.unstarted hr
      obtain rfl := Option.some.inj (h₁.symm.trans hrole)
      refine ⟨fun h => by simp at h, ?_⟩
      intro r hr
      obtain rfl := Option.some.inj hr
      exact ⟨by simp [h₃, Move.startedOn?], h₂, by simp only [h₂], rfl⟩
    | _ => simp [Move.startedOn?] at hmv

/-- Every agent that was made with a role keeps its aim. -/
theorem Run.aimed {role : Role} {timing : Timing} {t : List Stage} {b : Agent}
    (h : Run (ofRole role timing) t b) : b.Standing ∧ Aimed role timing t b := by
  induction h with
  | nil => exact ⟨standing_ofRole role timing, fun _ => ⟨rfl, rfl, rfl⟩, fun r h => by cases h⟩
  | snoc _ hm ih => exact ⟨standing_of_moves ih.1 hm, aimed_snoc ih.1 ih.2 hm⟩

end Agent

end TurnRendezvous
