/-
# Jobs

A job is work in the background whose result is delivered at most once,
through a gate of its own.  To cancel a job is to close the gate and to
cut the work short; to abandon it is to close the gate and let the work
run to its end.  Only the first of these calls has an effect.

The start of a delivery (`Job.beginDelivery`) and its end
(`Job.endDelivery`) are apart, because what is delivered may itself cancel
the job; `Job.complete` is both.
-/
import TurnRendezvous.Gate

namespace TurnRendezvous

inductive JobStage
  /-- The work is not done. -/
  | working
  /-- The work is done and its result is being delivered. -/
  | delivering
  /-- The work is done and its result was delivered or dropped. -/
  | finished
  /-- The work was cut short. -/
  | aborted
deriving DecidableEq

/-- A job whose work is described by `ω`. -/
structure Job (ω : Type) where
  work : ω
  gate : Gate := {}
  stage : JobStage := .working

namespace Job

variable {ω : Type}

/-- Whether a job was cancelled or abandoned. -/
def isCancelled (j : Job ω) : Bool := j.gate.closed

def isFinished (j : Job ω) : Bool := j.stage == .finished

def isWorking (j : Job ω) : Bool := j.stage == .working

/-- Stops delivery and cuts the work short, unless delivery was stopped before.
Work that is done cannot be cut short any more. -/
def cancel (j : Job ω) : Job ω :=
  if j.gate.closed then j
  else
    { j with
      gate := j.gate.close.2
      stage := if j.stage = .working then .aborted else j.stage }

/-- Stops delivery and lets the work go on. -/
def abandon (j : Job ω) : Job ω := { j with gate := j.gate.close.2 }

def progress (j : Job ω) (f : ω → ω) : Job ω :=
  if j.stage = .working then { j with work := f j.work } else j

/-- The work is done: delivery starts, if the gate lets it through. -/
def beginDelivery (j : Job ω) : Bool × Job ω :=
  if j.stage = .working then
    if j.gate.closed then (false, { j with stage := .finished })
    else (true, { j with stage := .delivering })
  else (false, j)

def endDelivery (j : Job ω) : Job ω :=
  if j.stage = .delivering then { j with stage := .finished } else j

/-- The work is done and delivered; answers whether the result got through. -/
def complete (j : Job ω) : Bool × Job ω :=
  let (delivered, j) := j.beginDelivery
  (delivered, j.endDelivery)

/-! ## What the calls do -/

@[simp] theorem isCancelled_cancel (j : Job ω) : j.cancel.isCancelled = true := by
  unfold cancel isCancelled
  split
  · assumption
  · rfl

@[simp] theorem isCancelled_abandon (j : Job ω) : j.abandon.isCancelled = true := rfl

theorem cancel_of_isCancelled {j : Job ω} (h : j.isCancelled = true) : j.cancel = j := by
  unfold cancel
  exact if_pos h

@[simp] theorem stage_abandon (j : Job ω) : j.abandon.stage = j.stage := rfl

end Job

end TurnRendezvous
