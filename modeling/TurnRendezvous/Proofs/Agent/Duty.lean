/-
# `Rendezvous.OnDuty` — what a rendezvous is about

In every phase something definite is going on in the background
(`Phase.activities`): a turn wait, a turn on its way, a probe with its timer,
or a watch for the end.  Each of these either still runs or has its end in
the queue, and carries the current generation.  So no notice is stale, and
what a notice says always fits the phase.

The lemmas here say how a rendezvous comes to be on duty (`onDuty_awaitTurn`,
`onDuty_submit` and so on) and what is left of it in the end (`over_leave`).
-/
import TurnRendezvous.Agent.Basic
import TurnRendezvous.Proofs.Agent.Verdict
import TurnRendezvous.Proofs.Job.Running

namespace TurnRendezvous

/-! ## Activities -/

/-- A kind of background work. -/
inductive Activity
  | turnWait | submission | probe | timer | endWatch
deriving DecidableEq

/-- The kind of a task's work. -/
def Work.activity : Work → Activity
  | .submit .. => .submission
  | .awaitTurn _ => .turnWait
  | .awaitEnd _ => .endWatch
  | .probe .. => .probe
  | .timer _ => .timer

/-- The kind of work that ends so. -/
def TaskEnd.activity : TaskEnd → Activity
  | .turn _ => .turnWait
  | .submitted _ => .submission
  | .probed _ => .probe
  | .timeUp => .timer
  | .ended _ => .endWatch

/-- What goes on in a phase. -/
def Phase.activities : Phase → List Activity
  | .waitingForTurn => [.turnWait]
  | .processingTurn => [.submission]
  | .verifying => [.probe, .timer]
  | .monitoring => [.endWatch]
  | .idle => []
  | .finished => []

/-- The ends of tasks among the notices of a queue, with their generations. -/
def noticed : List Notice → List (Nat × TaskEnd)
  | [] => []
  | .done generation how :: queue => (generation, how) :: noticed queue
  | .detach :: queue => noticed queue

theorem mem_noticed_iff {queue : List Notice} {g : Nat} {how : TaskEnd} :
    (g, how) ∈ noticed queue ↔ .done g how ∈ queue := by
  induction queue with
  | nil => simp [noticed]
  | cons n queue ih => cases n <;> simp [noticed, ih]

theorem noticed_append (q q' : List Notice) : noticed (q ++ q') = noticed q ++ noticed q' := by
  induction q with
  | nil => rfl
  | cons n q ih => cases n <;> simp [noticed, ih]

namespace Rendezvous

/-! ## Where a rendezvous can be -/

/-- What a role that has found `old` may have handed over: what it waits for then
and what it wants reported. -/
inductive Due : Role → Option Payload → Patience → Option Signal → Prop
  | offered {invite : String} :
      Due (.host invite) (some .uninitialized) .finished (some (.complete none))
  | passed {role : Role} {wait : Duration} :
      role.isHost = false → Due role (some .uninitialized) (.after wait) none
  | found {text : String} (h : text ≠ "") :
      Due (.client (some text)) (some (.invite text h)) .finished (some (.complete (some text)))
  | suspected {localId text : String} (h : text ≠ "") :
      Due (.autoClient localId (some text)) (some (.invite text h)) .finished
        (some (.verifyPeer text))

/-- How far the role has come in each phase. -/
def Course (r : Rendezvous) : Prop :=
  match r.phase with
  | .waitingForTurn =>
    r.oldData = none ∨ (r.oldData = some .uninitialized ∧ r.role.isHost = false)
  | .processingTurn => ∃ p, r.pending = some p ∧ Due r.role r.oldData p.nextWait p.signal
  | .verifying => ∃ localId text, r.role = .autoClient localId (some text) ∧ r.probed = some text
  | .monitoring => r.role.verifies = false ∧ r.dismisses = false
  | .idle => False
  | .finished => False

/-- Every job that can still deliver will be cancelled or abandoned at the end. -/
def Kept (r : Rendezvous) : Prop :=
  ∀ i j, r.jobs.get? i = some j → j.mayDeliver = true → i ∈ r.watches.ids ∨ r.submission = some i

/-- A rendezvous that is under way, with its queue of notices. -/
structure OnDuty (r : Rendezvous) (queue : List Notice) : Prop where
  activities :
    (r.jobs.running.map (·.work.activity) ++ (noticed queue).map (·.2.activity)).Perm
      r.phase.activities
  running_current : ∀ t ∈ r.jobs.running, t.generation = r.generation
  noticed_current : ∀ n ∈ noticed queue, n.1 = r.generation
  kept : r.Kept
  course : r.Course

/-- A rendezvous that is over: nothing of it can deliver any more. -/
structure Over (r : Rendezvous) : Prop where
  progress : r.progress = .ended
  phase : r.phase = .finished
  silent : r.jobs.running = []

/-! ## Endings -/

theorem kept_of_silent {r : Rendezvous} (h : r.jobs.running = []) : r.Kept := fun i j hj hd =>
  absurd hd (by simp [Registry.running_eq_nil_iff.1 h i j hj])

theorem over_leave {r : Rendezvous} (h : r.Kept) : r.leave.Over := by
  refine ⟨rfl, rfl, Registry.running_eq_nil_iff.2 ?_⟩
  intro i j hj
  cases hd : j.mayDeliver with
  | false => rfl
  | true =>
    -- such a job was not among the watches, so it was the submission, which is abandoned
    have hold : ∀ g : Registry Task, g = (r.watches.cancelAll r.jobs).2 →
        g.get? i = some j → r.submission = some i := by
      rintro g rfl hg
      obtain ⟨hi, hr⟩ := JobSet.get?_cancelAll hg hd
      exact (h i j hr hd).resolve_left hi
    simp only [leave, letGo] at hj
    cases hs : r.submission with
    | none =>
      rw [hs] at hj
      exact absurd (hold _ rfl hj) (by simp [hs])
    | some k =>
      simp only [hs, Registry.abandon, Registry.get?_modify] at hj
      by_cases hk : k = i
      · obtain ⟨j', -, rfl⟩ := Option.map_eq_some_iff.1 (by simpa [hk] using hj)
        simp at hd
      · rw [if_neg hk] at hj
        exact absurd (hold _ rfl hj) (by simp [hs, hk])

/-! ## Beginnings -/

theorem kept_watch {r : Rendezvous} (h : r.Kept) (work : Work) : (r.watch work).Kept := by
  intro i j hj hd
  rcases Registry.get?_spawn hj with hj | hj
  · rcases h i j hj hd with hi | hi
    · exact .inl (JobSet.mem_push (.inr ⟨hi, hj, hd⟩))
    · exact .inr hi
  · exact .inl (JobSet.mem_push (j := j) (.inl hj))

section Free
variable {r : Rendezvous} {queue : List Notice} (hr : r.jobs.running = [])
  (hq : noticed queue = [])
include hr hq

theorem onDuty_watch {phase : Phase} {work : Work} (ha : phase.activities = [work.activity])
    (hc : ((r.enter phase).watch work).Course) : ((r.enter phase).watch work).OnDuty queue where
  activities := by simp [watch, enter, hr, hq, ha]
  running_current := by simp [watch, enter, hr]
  noticed_current := by simp [hq]
  kept := kept_watch (r := r.enter phase) (kept_of_silent hr) work
  course := hc

theorem onDuty_awaitTurn (now : Instant) (position : Nat) (timeout : Option Duration)
    (hc : r.oldData = none ∨ (r.oldData = some .uninitialized ∧ r.role.isHost = false)) :
    (r.awaitTurn now position timeout).OnDuty queue :=
  onDuty_watch hr hq rfl hc

theorem onDuty_awaitEnd (position : Nat) (hv : r.role.verifies = false)
    (hd : r.dismisses = false) : (r.awaitEnd position).OnDuty queue :=
  onDuty_watch hr hq rfl ⟨hv, hd⟩

theorem onDuty_submit {d : Decision} (hp : r.phase = .processingTurn)
    (hd : Due r.role r.oldData d.nextWait d.signal) (next : Option PlayerId) (position : Nat) :
    (r.submit d next position).1.OnDuty queue where
  activities := by simp [submit, hr, hq, hp, Phase.activities, Work.activity]
  running_current := by simp [submit, hr]
  noticed_current := by simp [hq]
  kept := fun i j hj hm => by
    rcases Registry.get?_spawn hj with hj | hj
    · exact absurd hm (by simp [Registry.running_eq_nil_iff.1 hr i j hj])
    · exact .inr (congrArg some hj.symm)
  course := by
    simp only [Course, submit, hp]
    exact ⟨_, rfl, hd⟩

theorem onDuty_verify {localId text : String} (hrole : r.role = .autoClient localId (some text))
    (now : Instant) : (r.verify now text).1.OnDuty queue where
  activities := by
    simp [verify, hrole, watch, enter, hr, hq, Phase.activities, Work.activity]
  running_current := by
    simp [verify, hrole, watch, enter, hr]
  noticed_current := by simp [hq]
  kept := by
    simp only [verify, hrole]
    exact kept_watch (kept_watch (r := r.enter .verifying) (kept_of_silent hr) _) _
  course := by
    simp only [Course, verify, hrole, watch, enter]
    exact ⟨localId, text, rfl, rfl⟩

end Free

end Rendezvous

end TurnRendezvous
