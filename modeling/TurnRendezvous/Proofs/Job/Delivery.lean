/-
# `Job.Scene` — a job among the calls that stop it

A job is stopped from any side and at any time: while its work goes on, when the
work has come to its output and the output is not offered yet, and from within
the delivery itself.  Here these moments are kept apart.  The work of a job is a
future (`Effort`) that takes a number of steps, and a `Scene` is the job with
what is on its way to it; what may happen next is `Scene.step?`.

Two things that `Job` does at one stroke take longer here.

* Work that is cancelled in the middle of a step (`Call.cancel late`) goes on until
  it halts, and it may come to its end before that; `run?_late_cancel` says that
  with nothing in between this is `Job.cancel`.
* The output is offered to the gate some time after the work is done, and the
  delivery ends some time after it has begun; `endDelivery_offer` says that with
  nothing in between this is `Job.complete`.

A call from elsewhere that comes during a delivery waits for the gate.  It is a
call after the delivery; those that are made during it are made inside it.

What has become of a job is read off the row of moves (`Knows`), one move at a
time, and `first_call_decides` says it of whole rows: of all calls the first one
decides.
-/
import TurnRendezvous.Proofs.Job.Running
import Mathlib.Data.List.Induction

namespace TurnRendezvous

/-- A future: the steps that are left before the last one, and what it comes to. -/
inductive Effort (α : Type)
  | pending (left : Nat) (output : α)
  | done (output : α)
deriving DecidableEq

namespace Effort

variable {α : Type}

def output : Effort α → α
  | .pending _ v => v
  | .done v => v

def isDone : Effort α → Bool
  | .pending .. => false
  | .done _ => true

/-- The steps that are still to be taken. -/
def left : Effort α → Nat
  | .pending n _ => n + 1
  | .done _ => 0

/-- Takes one step. -/
def advance : Effort α → Effort α
  | .pending (n + 1) v => .pending n v
  | .pending 0 v => .done v
  | .done v => .done v

@[simp] theorem output_advance (e : Effort α) : e.advance.output = e.output := by
  unfold advance
  split <;> rfl

theorem left_advance {e : Effort α} (h : e.isDone = false) : e.advance.left + 1 = e.left := by
  unfold advance
  split
  · rfl
  · rfl
  · cases h

theorem left_eq_zero_of_isDone {e : Effort α} (h : e.isDone = true) : e.left = 0 := by
  cases e with
  | pending => cases h
  | done => rfl

end Effort

namespace Job

/-! ## Scenes -/

/-- What stops a job. -/
inductive Call
  /-- `late` if the work is in the middle of a step and cannot be cut short before that. -/
  | cancel (late : Bool)
  | abandon
deriving DecidableEq

/-- One thing that happens to a job. -/
inductive Move
  | call (c : Call)
  /-- The work takes a step; the last one comes to the output. -/
  | work
  /-- Work that a late cancel has hit is cut short. -/
  | halt
  /-- The output is offered to the gate, which lets it through or drops it. -/
  | offer
  /-- The delivery is over. -/
  | finish
deriving DecidableEq

namespace Move

def call? : Move → Option Call
  | .call c => some c
  | _ => none

/-- Whether the job makes this move by itself. -/
def isOwn (m : Move) : Bool := m.call?.isNone

end Move

/-- The call that came first. -/
def firstCall? (ms : List Move) : Option Call := ms.findSome? Move.call?

/-- Whether the output was offered before any call came. -/
def OfferedInTime (ms : List Move) : Prop :=
  ∃ earlier later, ms = earlier ++ .offer :: later ∧ firstCall? earlier = none

/-- A job whose work is a future, and what was delivered of it. -/
structure Scene (α : Type) where
  job : Job (Effort α)
  /-- A late cancel has hit the work. -/
  cutDue : Bool := false
  delivered : List α := []

namespace Scene

variable {α : Type}

/-- A new job; its work takes `n + 1` steps and comes to `v`. -/
def spawn (n : Nat) (v : α) : Scene α := { job := { work := .pending n v } }

/-- Whether the work goes on. -/
def isPending (s : Scene α) : Bool := s.job.isWorking && !s.job.work.isDone

/-- Whether the work has come to its output, which is not offered yet. -/
def isReady (s : Scene α) : Bool := s.job.isWorking && s.job.work.isDone

/-- The scene after a call.  Work that is done is past cutting short. -/
def call (s : Scene α) : Call → Scene α
  | .cancel late =>
    if late || s.isReady then
      { s with job := s.job.abandon, cutDue := s.cutDue || !s.job.isCancelled }
    else { s with job := s.job.cancel }
  | .abandon => { s with job := s.job.abandon }

/-- The scene after a move, if the move can be made. -/
def step? (s : Scene α) : Move → Option (Scene α)
  | .call c => some (s.call c)
  | .work => if s.isPending then some { s with job := s.job.progress Effort.advance } else none
  | .halt =>
    if s.isPending && s.cutDue then some { s with job := { s.job with stage := .aborted } }
    else none
  | .offer =>
    if s.isReady then
      some { s with
        job := s.job.beginDelivery.2
        delivered := s.delivered ++ if s.job.beginDelivery.1 then [s.job.work.output] else [] }
    else none
  | .finish =>
    if s.job.stage = .delivering then some { s with job := s.job.endDelivery } else none

/-- The scene after a row of moves. -/
def run? (s : Scene α) (ms : List Move) : Option (Scene α) := ms.foldlM step? s

/-- Whether the job makes no move by itself any more. -/
def AtRest (s : Scene α) : Prop := ∀ m, m.isOwn = true → s.step? m = none

theorem run?_append (s : Scene α) (ms ms' : List Move) :
    s.run? (ms ++ ms') = (s.run? ms).bind fun s' => s'.run? ms' :=
  List.foldlM_append

theorem run?_singleton (s : Scene α) (m : Move) : s.run? [m] = s.step? m := by
  simp [run?]

/-! ## Nothing in between -/

/-- Work that is halted as soon as a cancel has hit it might as well have been cut short by
the cancel. -/
theorem run?_late_cancel {s : Scene α} (hp : s.isPending = true)
    (ho : s.job.isCancelled = false) :
    (s.run? [.call (.cancel true), .halt]).map Scene.job =
      (s.run? [.call (.cancel false)]).map Scene.job := by
  obtain ⟨hw, hd⟩ := Bool.and_eq_true_iff.1 hp
  have hstage : s.job.stage = .working := by simpa [Job.isWorking] using hw
  have hg : s.job.gate.closed = false := ho
  have hd : s.job.work.isDone = false := by simpa using hd
  simp [run?, step?, call, isPending, isReady, Job.isWorking, Job.cancel, Job.abandon,
    Job.isCancelled, hstage, hg, hd]

/-- A delivery that is over as soon as it has begun is that of `Job.complete`. -/
theorem endDelivery_offer {s : Scene α} (hr : s.isReady = true) :
    (s.step? .offer).map (fun s' => s'.job.endDelivery) = some s.job.complete.2 := by
  simp [step?, hr, Job.complete]

end Scene

/-! ## What a move does -/

section Steps
variable {α : Type} {s s' : Scene α} {m : Move}

/-- The moves that can be made, and what they lead to. -/
inductive Steps (s : Scene α) : Move → Scene α → Prop
  | call (c : Call) : Steps s (.call c) (s.call c)
  | work : s.job.stage = .working → s.job.work.isDone = false →
      Steps s .work { s with job := { s.job with work := s.job.work.advance } }
  | halt : s.job.stage = .working → s.job.work.isDone = false → s.cutDue = true →
      Steps s .halt { s with job := { s.job with stage := .aborted } }
  | deliver : s.job.stage = .working → s.job.work.isDone = true → s.job.isCancelled = false →
      Steps s .offer
        { s with
          job := { s.job with stage := .delivering }
          delivered := s.delivered ++ [s.job.work.output] }
  | drop : s.job.stage = .working → s.job.work.isDone = true → s.job.isCancelled = true →
      Steps s .offer { s with job := { s.job with stage := .finished } }
  | finish : s.job.stage = .delivering →
      Steps s .finish { s with job := { s.job with stage := .finished } }

theorem isPending_iff :
    s.isPending = true ↔ s.job.stage = .working ∧ s.job.work.isDone = false := by
  simp [Scene.isPending, isWorking]

theorem isReady_iff :
    s.isReady = true ↔ s.job.stage = .working ∧ s.job.work.isDone = true := by
  simp [Scene.isReady, isWorking]

theorem steps_of_step? (h : s.step? m = some s') : Steps s m s' := by
  cases m with
  | call c =>
    obtain rfl := Option.some.inj h
    exact .call c
  | work =>
    obtain ⟨hp, hs⟩ := Option.ite_none_right_eq_some.1 h
    obtain ⟨hw, hd⟩ := isPending_iff.1 hp
    obtain rfl := Option.some.inj hs
    simpa [progress, hw] using Steps.work hw hd
  | halt =>
    obtain ⟨hp, hs⟩ := Option.ite_none_right_eq_some.1 h
    obtain ⟨hp, hcut⟩ := Bool.and_eq_true_iff.1 hp
    obtain ⟨hw, hd⟩ := isPending_iff.1 hp
    obtain rfl := Option.some.inj hs
    exact .halt hw hd hcut
  | offer =>
    obtain ⟨hr, hs⟩ := Option.ite_none_right_eq_some.1 h
    obtain ⟨hw, hd⟩ := isReady_iff.1 hr
    obtain rfl := Option.some.inj hs
    cases hc : s.job.isCancelled with
    | true =>
      have hg : s.job.gate.closed = true := hc
      have hb : s.job.beginDelivery = (false, { s.job with stage := .finished }) := by
        simp [beginDelivery, hw, hg]
      simpa [hb] using Steps.drop hw hd hc
    | false =>
      have hg : s.job.gate.closed = false := hc
      have hb : s.job.beginDelivery = (true, { s.job with stage := .delivering }) := by
        simp [beginDelivery, hw, hg]
      simpa [hb] using Steps.deliver hw hd hc
  | finish =>
    obtain ⟨hstage, hs⟩ := Option.ite_none_right_eq_some.1 h
    obtain rfl := Option.some.inj hs
    simpa [endDelivery, hstage] using Steps.finish hstage

/-- What a call does: it closes the gate.  Only a cancel that finds the gate open cuts work
short, or sees to it that work is cut short. -/
theorem call_effect (s : Scene α) (c : Call) :
    (s.call c).job.work = s.job.work ∧ (s.call c).delivered = s.delivered ∧
      (s.call c).job.isCancelled = true ∧
      ((s.call c).job.stage = s.job.stage ∧ (s.call c).cutDue = s.cutDue ∨
        s.job.isCancelled = false ∧ (∃ late, c = .cancel late) ∧
          ((s.call c).job.stage = s.job.stage ∨
            s.job.stage = .working ∧ (s.call c).job.stage = .aborted)) := by
  cases c with
  | abandon => exact ⟨rfl, rfl, rfl, .inl ⟨rfl, rfl⟩⟩
  | cancel late =>
    cases hpast : late || s.isReady with
    | true =>
      have hcall : s.call (.cancel late) =
          { s with job := s.job.abandon, cutDue := s.cutDue || !s.job.isCancelled } := if_pos hpast
      rw [hcall]
      cases hc : s.job.isCancelled with
      | true => exact ⟨rfl, rfl, rfl, .inl ⟨rfl, Bool.or_false _⟩⟩
      | false => exact ⟨rfl, rfl, rfl, .inr ⟨rfl, ⟨late, rfl⟩, .inl rfl⟩⟩
    | false =>
      have hcall : s.call (.cancel late) = { s with job := s.job.cancel } :=
        if_neg (by simp [hpast])
      rw [hcall]
      cases hc : s.job.isCancelled with
      | true =>
        rw [cancel_of_isCancelled hc]
        exact ⟨rfl, rfl, hc, .inl ⟨rfl, rfl⟩⟩
      | false =>
        have hstage : s.job.cancel.stage =
            if s.job.stage = .working then .aborted else s.job.stage := by
          have hg : s.job.gate.closed = false := hc
          simp [Job.cancel, hg]
        refine ⟨work_cancel _, rfl, isCancelled_cancel _, .inr ⟨rfl, ⟨late, rfl⟩, ?_⟩⟩
        by_cases hw : s.job.stage = .working
        · exact .inr ⟨hw, hstage.trans (if_pos hw)⟩
        · exact .inl (hstage.trans (if_neg hw))

theorem stage_call (s : Scene α) (c : Call) :
    (s.call c).job.stage = s.job.stage ∨
      s.job.stage = .working ∧ (s.call c).job.stage = .aborted := by
  obtain ⟨-, -, -, ⟨hsame, -⟩ | ⟨-, -, hstage⟩⟩ := call_effect s c
  · exact .inl hsame
  · exact hstage

end Steps

/-! ## What has happened so far -/

section History
variable {ms : List Move} {m : Move}

theorem firstCall?_snoc (ms : List Move) (m : Move) :
    firstCall? (ms ++ [m]) = (firstCall? ms).or m.call? := by
  cases h : m.call? <;> simp [firstCall?, List.findSome?_append, h]

theorem firstCall?_eq_none_iff : firstCall? ms = none ↔ ∀ m ∈ ms, m.call? = none :=
  List.findSome?_eq_none_iff

theorem offeredInTime_snoc :
    OfferedInTime (ms ++ [m]) ↔ OfferedInTime ms ∨ m = .offer ∧ firstCall? ms = none := by
  constructor
  · rintro ⟨earlier, later, hms, hnone⟩
    rcases List.eq_nil_or_concat later with rfl | ⟨later, last, rfl⟩
    · obtain ⟨rfl, hm⟩ := List.append_inj' hms rfl
      exact .inr ⟨List.singleton_inj.1 hm, hnone⟩
    · rw [List.concat_eq_append, ← List.cons_append, ← List.append_assoc] at hms
      obtain ⟨rfl, -⟩ := List.append_inj' hms rfl
      exact .inl ⟨earlier, later, rfl, hnone⟩
  · rintro (⟨earlier, later, rfl, hnone⟩ | ⟨rfl, hnone⟩)
    · exact ⟨earlier, later ++ [m], by simp, hnone⟩
    · exact ⟨ms, [], rfl, hnone⟩

theorem offeredInTime_snoc_of_ne (hm : m ≠ .offer) :
    OfferedInTime (ms ++ [m]) ↔ OfferedInTime ms := by
  simp [offeredInTime_snoc, hm]

/-- Once a call has come, nothing that comes later is in time. -/
theorem offeredInTime_append {later : List Move} (h : firstCall? ms ≠ none) :
    OfferedInTime (ms ++ later) ↔ OfferedInTime ms := by
  induction later using List.reverseRecOn with
  | nil => simp
  | append_singleton later m ih =>
    have hsome : firstCall? (ms ++ later) ≠ none := by
      rw [firstCall?, List.findSome?_append, ne_eq, Option.or_eq_none_iff]
      exact fun hnone => h hnone.1
    rw [← List.append_assoc, offeredInTime_snoc, ih]
    simp [hsome]

end History

section Knows
variable {α : Type} {n : Nat} {v : α} {ms : List Move} {m : Move} {s s' : Scene α}

/-- The moves that a job may still make by itself. -/
def Scene.toll (s : Scene α) : Nat :=
  match s.job.stage with
  | .working => s.job.work.left + 2
  | .delivering => 1
  | .finished | .aborted => 0

/-- A move that the job makes by itself is paid for, and no call costs anything. -/
theorem Steps.toll (hs : Steps s m s') : [m].countP Move.isOwn + s'.toll ≤ s.toll := by
  cases hs with
  | call c =>
    obtain ⟨hwork, -, -, ⟨hsame, -⟩ | ⟨-, -, hsame | ⟨hw, ha⟩⟩⟩ := call_effect s c
    · simp [Scene.toll, hsame, hwork, Move.isOwn, Move.call?]
    · simp [Scene.toll, hsame, hwork, Move.isOwn, Move.call?]
    · simp [Scene.toll, ha, Move.isOwn, Move.call?]
  | work hw hd =>
    have hleft := Effort.left_advance hd
    have hnow : s.toll = s.job.work.left + 2 := by simp [Scene.toll, hw]
    have hthen : Scene.toll { s with job := { s.job with work := s.job.work.advance } } =
        s.job.work.advance.left + 2 := by simp [Scene.toll, hw]
    rw [hnow, hthen, ← hleft]
    exact Nat.le_of_eq (Nat.add_comm _ _)
  | halt hw hd hcut => simp [Scene.toll, hw, Move.isOwn, Move.call?]
  | deliver hw hd hopen => simp [Scene.toll, hw, Move.isOwn, Move.call?]
  | drop hw hd hclosed => simp [Scene.toll, hw, Move.isOwn, Move.call?]
  | finish hstage => simp [Scene.toll, hstage, Move.isOwn, Move.call?]

/-- What a scene has to do with the moves that have led to it. -/
structure Knows (n : Nat) (v : α) (ms : List Move) (s : Scene α) : Prop where
  output : s.job.work.output = v
  cancelled : s.job.isCancelled = (firstCall? ms).isSome
  cut : s.cutDue = true ∨ s.job.stage = .aborted → ∃ late, firstCall? ms = some (.cancel late)
  /-- Work that is not done has offered nothing. -/
  early : s.job.stage = .working ∨ s.job.stage = .aborted → ¬ OfferedInTime ms
  delivered : s.delivered = [v] ∧ OfferedInTime ms ∨ s.delivered = [] ∧ ¬ OfferedInTime ms
  offered : s.job.stage = .delivering ∨ s.job.stage = .finished →
    s.job.work.isDone = true ∧ .offer ∈ ms
  worked : ms.count .work + s.job.work.left = n + 1
  paid : ms.countP Move.isOwn + s.toll ≤ n + 3

theorem knows_spawn (n : Nat) (v : α) : Knows n v [] (Scene.spawn n v) where
  output := rfl
  cancelled := rfl
  cut := by simp [Scene.spawn]
  early := by simp [OfferedInTime]
  delivered := .inr ⟨rfl, by simp [OfferedInTime]⟩
  offered := by simp [Scene.spawn]
  worked := by simp [Scene.spawn, Effort.left]
  paid := by simp [Scene.toll, Scene.spawn, Effort.left]

theorem Knows.paid_snoc (h : Knows n v ms s) (hs : Steps s m s') :
    (ms ++ [m]).countP Move.isOwn + s'.toll ≤ n + 3 := by
  have hpaid := h.paid
  have htoll := hs.toll
  rw [List.countP_append]
  omega

/-- A call closes the gate; whatever is cut short by it is cut short by the first one. -/
theorem Knows.call (h : Knows n v ms s) (c : Call) : Knows n v (ms ++ [.call c]) (s.call c) := by
  obtain ⟨hwork, hdelivered, hclosed, heffect⟩ := call_effect s c
  have hoffered : OfferedInTime (ms ++ [.call c]) ↔ OfferedInTime ms :=
    offeredInTime_snoc_of_ne nofun
  have hstage := stage_call s c
  refine ⟨?_, ?_, ?_, ?_, ?_, ?_, ?_, ?_⟩
  · rw [hwork, h.output]
  · cases hf : firstCall? ms <;> simp [hclosed, firstCall?_snoc, hf, Move.call?]
  · intro hcut
    rcases heffect with ⟨hsame, hdue⟩ | ⟨hopen, ⟨late, rfl⟩, -⟩
    · rw [hsame, hdue] at hcut
      obtain ⟨late, hfirst⟩ := h.cut hcut
      exact ⟨late, by simp [firstCall?_snoc, hfirst]⟩
    · have hnone : firstCall? ms = none := by simpa [hopen] using h.cancelled.symm
      exact ⟨late, by simp [firstCall?_snoc, hnone, Move.call?]⟩
  · intro hafter
    rw [hoffered]
    refine h.early ?_
    rcases hstage with hsame | ⟨hw, -⟩
    · rwa [hsame] at hafter
    · exact .inl hw
  · rw [hdelivered, hoffered]
    exact h.delivered
  · intro hafter
    rw [hwork]
    rcases hstage with hsame | ⟨-, ha⟩
    · exact (h.offered (hsame ▸ hafter)).imp_right (List.mem_append_left _)
    · simp [ha] at hafter
  · simpa [hwork] using h.worked
  · exact h.paid_snoc (.call c)

/-- A move that is no call tells of no call. -/
theorem Knows.firstCall?_own (hm : m.isOwn = true) : firstCall? (ms ++ [m]) = firstCall? ms := by
  have hnone : m.call? = none := by simpa [Move.isOwn] using hm
  simp [firstCall?_snoc, hnone]

theorem Knows.step (h : Knows n v ms s) (hs : Steps s m s') : Knows n v (ms ++ [m]) s' := by
  have hworked := h.worked
  have hpaid := h.paid_snoc hs
  cases hs with
  | call c => exact h.call c
  | work hw hd =>
    have hsame : firstCall? (ms ++ [.work]) = firstCall? ms := firstCall?_own rfl
    have hoffered : OfferedInTime (ms ++ [.work]) ↔ OfferedInTime ms :=
      offeredInTime_snoc_of_ne nofun
    have hleft := Effort.left_advance hd
    refine ⟨?_, hsame ▸ h.cancelled, hsame ▸ h.cut, ?_, ?_, ?_, ?_, ?_⟩
    · simpa using h.output
    · simpa [hoffered] using h.early
    · simpa [hoffered] using h.delivered
    · simp [hw]
    · rw [List.count_append, List.count_singleton_self, Nat.add_assoc, Nat.add_comm 1, hleft]
      exact hworked
    · exact hpaid
  | halt hw hd hcut =>
    have hsame : firstCall? (ms ++ [.halt]) = firstCall? ms := firstCall?_own rfl
    have hoffered : OfferedInTime (ms ++ [.halt]) ↔ OfferedInTime ms :=
      offeredInTime_snoc_of_ne nofun
    refine ⟨h.output, hsame ▸ h.cancelled, fun _ => hsame ▸ h.cut (.inl hcut), ?_, ?_, ?_, ?_, ?_⟩
    · exact fun _ => hoffered.not.2 (h.early (.inl hw))
    · simpa [hoffered] using h.delivered
    · simp
    · simpa using hworked
    · exact hpaid
  | deliver hw hd hopen =>
    have hsame : firstCall? (ms ++ [.offer]) = firstCall? ms := firstCall?_own rfl
    have hnone : firstCall? ms = none := by simpa [hopen] using h.cancelled.symm
    have hearly : ¬ OfferedInTime ms := h.early (.inl hw)
    have hnew : s.delivered = [] := by simpa [hearly] using h.delivered
    refine ⟨h.output, hsame ▸ h.cancelled, ?_, ?_, .inl ⟨?_, ?_⟩, fun _ => ⟨hd, by simp⟩, ?_, ?_⟩
    · exact fun hcut => hsame ▸ h.cut (.inl (by simpa using hcut))
    · simp
    · simp [hnew, h.output]
    · exact offeredInTime_snoc.2 (.inr ⟨rfl, hnone⟩)
    · simpa using hworked
    · exact hpaid
  | drop hw hd hclosed =>
    have hsame : firstCall? (ms ++ [.offer]) = firstCall? ms := firstCall?_own rfl
    have hsome : firstCall? ms ≠ none := by
      intro hnone
      simpa [hclosed, hnone] using h.cancelled
    have hearly : ¬ OfferedInTime ms := h.early (.inl hw)
    have hoffered : OfferedInTime (ms ++ [.offer]) ↔ OfferedInTime ms := offeredInTime_append hsome
    refine ⟨h.output, hsame ▸ h.cancelled, ?_, ?_, ?_, fun _ => ⟨hd, by simp⟩, ?_, ?_⟩
    · exact fun hcut => hsame ▸ h.cut (.inl (by simpa using hcut))
    · simp
    · simpa [hoffered] using h.delivered
    · simpa using hworked
    · exact hpaid
  | finish hstage =>
    have hsame : firstCall? (ms ++ [.finish]) = firstCall? ms := firstCall?_own rfl
    have hoffered : OfferedInTime (ms ++ [.finish]) ↔ OfferedInTime ms :=
      offeredInTime_snoc_of_ne nofun
    refine ⟨h.output, hsame ▸ h.cancelled, ?_, ?_, ?_, fun _ => ?_, ?_, ?_⟩
    · exact fun hcut => hsame ▸ h.cut (.inl (by simpa using hcut))
    · simp
    · simpa [hoffered] using h.delivered
    · exact (h.offered (.inl hstage)).imp_right (List.mem_append_left _)
    · simpa using hworked
    · exact hpaid

/-- What is known of a scene after a row of moves. -/
theorem knows_of_run? : ∀ {s : Scene α}, (Scene.spawn n v).run? ms = some s → Knows n v ms s := by
  induction ms using List.reverseRecOn with
  | nil =>
    intro s h
    obtain rfl := Option.some.inj h
    exact knows_spawn n v
  | append_singleton ms m ih =>
    intro s h
    rw [Scene.run?_append] at h
    obtain ⟨s₁, hrun, hstep⟩ := Option.bind_eq_some_iff.1 h
    rw [Scene.run?_singleton] at hstep
    exact (ih hrun).step (steps_of_step? hstep)

/-- A job that makes no move by itself any more has finished or was cut short. -/
theorem Scene.AtRest.stage (h : s.AtRest) : s.job.stage = .finished ∨ s.job.stage = .aborted := by
  cases hs : s.job.stage with
  | working =>
    cases hd : s.job.work.isDone with
    | true => simpa [Scene.step?, isReady_iff.2 ⟨hs, hd⟩] using h .offer rfl
    | false => simpa [Scene.step?, isPending_iff.2 ⟨hs, hd⟩] using h .work rfl
  | delivering => simpa [Scene.step?, hs] using h .finish rfl
  | finished => exact .inl rfl
  | aborted => exact .inr rfl

/-! ## Main statement -/

/-- Of all calls that stop a job the first one decides.  A job is given whose work takes
`n + 1` steps and comes to `v`, and any row of moves, the calls among them wherever they may
come.  What is delivered is `v`, once or not at all, and it is delivered just if it was
offered before any call; after a call nothing is delivered any more.  The job counts as
cancelled just if a call has come.  Its work is cut short only where the first call is a
cancel.  By itself the job makes at most `n + 3` moves, and when it makes no more, then
unless the first call was a cancel, it has finished and all its work is done, and it has
delivered if there was no call at all. -/
theorem first_call_decides (h : (Scene.spawn n v).run? ms = some s) :
    (s.delivered = [] ∨ s.delivered = [v]) ∧
      (s.delivered = [v] ↔ OfferedInTime ms) ∧
      (∀ earlier later, ms = earlier ++ later → firstCall? earlier ≠ none →
        ∃ s', (Scene.spawn n v).run? earlier = some s' ∧ s.delivered = s'.delivered) ∧
      (s.job.isCancelled = true ↔ ∃ m ∈ ms, m.call? ≠ none) ∧
      (s.job.stage = .aborted → ∃ late, firstCall? ms = some (.cancel late)) ∧
      ms.countP Move.isOwn ≤ n + 3 ∧
      (s.AtRest → (∀ late, firstCall? ms ≠ some (.cancel late)) →
        s.job.isFinished = true ∧ ms.count .work = n + 1) ∧
      (s.AtRest → (∀ m ∈ ms, m.call? = none) → s.delivered = [v]) := by
  have hk := knows_of_run? h
  have hdelivered : s.delivered = [v] ↔ OfferedInTime ms := by
    rcases hk.delivered with ⟨hv, hoffered⟩ | ⟨hv, hoffered⟩ <;> simp [hv, hoffered]
  refine ⟨?_, hdelivered, ?_, ?_, fun ha => hk.cut (.inr ha), ?_, ?_, ?_⟩
  · exact hk.delivered.elim (fun hv => .inr hv.1) fun hv => .inl hv.1
  · rintro earlier later rfl hcall
    rw [Scene.run?_append] at h
    obtain ⟨s', hearlier, -⟩ := Option.bind_eq_some_iff.1 h
    refine ⟨s', hearlier, ?_⟩
    have hsame : OfferedInTime (earlier ++ later) ↔ OfferedInTime earlier :=
      offeredInTime_append hcall
    rcases hk.delivered with ⟨hv, hoffered⟩ | ⟨hv, hoffered⟩ <;>
      rcases (knows_of_run? hearlier).delivered with ⟨hv', hoffered'⟩ | ⟨hv', hoffered'⟩ <;>
        simp_all
  · rw [hk.cancelled, Option.isSome_iff_ne_none, ne_eq, firstCall?_eq_none_iff]
    simp
  · have hpaid := hk.paid
    omega
  · intro hrest hfirst
    rcases hrest.stage with hs | hs
    · have hworked := hk.worked
      rw [Effort.left_eq_zero_of_isDone (hk.offered (.inr hs)).1] at hworked
      exact ⟨by simp [isFinished, hs], hworked⟩
    · obtain ⟨late, hcancel⟩ := hk.cut (.inr hs)
      exact absurd hcancel (hfirst late)
  · intro hrest hnone
    rcases hrest.stage with hs | hs
    · obtain ⟨earlier, later, rfl⟩ := List.append_of_mem (hk.offered (.inr hs)).2
      have hearlier : firstCall? earlier = none :=
        firstCall?_eq_none_iff.2 fun m hm => hnone m (List.mem_append_left _ hm)
      exact hdelivered.2 ⟨earlier, later, rfl, hearlier⟩
    · obtain ⟨late, hcancel⟩ := hk.cut (.inr hs)
      simp [firstCall?_eq_none_iff.2 hnone] at hcancel

end Knows

/-- Work that is abandoned after its first step: a cancel that comes later has no effect on it,
so it finishes and delivers nothing.  And a delivery that cancels its own job: it has run
once, and the job has finished all the same. -/
theorem first_call_decides_inside_a_delivery :
    let abandoned : List Move := [.work, .call .abandon, .call (.cancel true), .work, .offer]
    let inside : List Move :=
      [.work, .work, .offer, .call (.cancel false), .call .abandon, .finish]
    ∃ s s' : Scene Nat, (Scene.spawn 1 7).run? abandoned = some s ∧
      (Scene.spawn 1 7).run? inside = some s' ∧ s.AtRest ∧ s'.AtRest ∧
      s.job.isFinished = true ∧ s'.job.isCancelled = true ∧ s'.delivered = [7] := by
  intro abandoned inside
  have habandoned : (Scene.spawn 1 7).run? abandoned =
      some ⟨⟨.done 7, ⟨true⟩, .finished⟩, false, []⟩ := rfl
  have hinside : (Scene.spawn 1 7).run? inside =
      some ⟨⟨.done 7, ⟨true⟩, .finished⟩, false, [7]⟩ := rfl
  have rest (s : Scene Nat) (hs : s.job.stage = .finished) : s.AtRest := by
    intro m hm
    cases m with
    | call c => cases hm
    | finish => simp [Scene.step?, hs]
    | _ => simp [Scene.step?, Scene.isPending, Scene.isReady, isWorking, hs]
  obtain ⟨-, -, -, -, -, -, hends, -⟩ := first_call_decides habandoned
  obtain ⟨-, hoffered, -, hcancelled, -⟩ := first_call_decides hinside
  refine ⟨_, _, habandoned, hinside, rest _ rfl, rest _ rfl, ?_, ?_, ?_⟩
  · exact (hends (rest _ rfl) (by decide)).1
  · exact hcancelled.2 (by decide)
  · exact hoffered.2 ⟨[.work, .work], _, rfl, rfl⟩

end Job

end TurnRendezvous
