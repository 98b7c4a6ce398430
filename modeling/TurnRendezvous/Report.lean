/-
# Reports

What an agent has to say about its match.  Success with an invite is a
client's, success without one is a host's.  `Report.toResult` is a report
as the end of a single attempt.

A `Listener` has a way of its own to hear each outcome.  The listener here
is an `Outbox`, which queues reports for a reader.  A bounded outbox that is
full drops the new report and keeps the old ones.
-/
import TurnRendezvous.Failure
import TurnRendezvous.Match.Basic

namespace TurnRendezvous

/-- What a rendezvous comes to. -/
inductive Outcome
  | complete (invite : Option String)
  | matchInvalid
  | fatalError (error : Failure)
  | timeout
  | matchRemoved
deriving DecidableEq

structure Report where
  matchId : MatchId
  outcome : Outcome
deriving DecidableEq

namespace Report

/-- The invite that a report carries, or the failure that it amounts to. -/
def toResult (r : Report) : Except Failure (Option String) :=
  match r.outcome with
  | .complete invite => .ok invite
  | .matchInvalid =>
    .error (.protocolViolation s!"match {r.matchId.text} broke the rendezvous protocol")
  | .fatalError error => .error error
  | .timeout => .error .timeout
  | .matchRemoved => .error .matchRemoved

def isComplete (r : Report) : Bool :=
  match r.outcome with
  | .complete _ => true
  | _ => false

end Report

/-- One who hears what becomes of a match. -/
class Listener (α : Type) where
  onComplete : α → MatchId → Option String → α
  onMatchInvalid : α → MatchId → α
  onFatalError : α → MatchId → Failure → α
  onTimeout : α → MatchId → α
  onMatchRemoved : α → MatchId → α

/-- Lets a listener hear a report. -/
def Report.dispatch {α : Type} [Listener α] (r : Report) (l : α) : α :=
  match r.outcome with
  | .complete invite => Listener.onComplete l r.matchId invite
  | .matchInvalid => Listener.onMatchInvalid l r.matchId
  | .fatalError error => Listener.onFatalError l r.matchId error
  | .timeout => Listener.onTimeout l r.matchId
  | .matchRemoved => Listener.onMatchRemoved l r.matchId

/-- Reports on their way to a reader. -/
structure Outbox where
  /-- How many reports may wait; `none` for any number. -/
  capacity : Option Nat
  /-- The reports that wait, oldest first. -/
  waiting : List Report := []
  /-- Whether the reader is still there. -/
  attached : Bool := true
deriving DecidableEq

namespace Outbox

def isFull (o : Outbox) : Bool :=
  match o.capacity with
  | none => false
  | some n => decide (n ≤ o.waiting.length)

/-- Queues a report, unless there is no room or no reader. -/
def push (o : Outbox) (r : Report) : Outbox :=
  if o.attached && !o.isFull then { o with waiting := o.waiting ++ [r] } else o

/-- An outbox puts together again what it hears in pieces. -/
instance : Listener Outbox where
  onComplete o id invite := o.push ⟨id, .complete invite⟩
  onMatchInvalid o id := o.push ⟨id, .matchInvalid⟩
  onFatalError o id error := o.push ⟨id, .fatalError error⟩
  onTimeout o id := o.push ⟨id, .timeout⟩
  onMatchRemoved o id := o.push ⟨id, .matchRemoved⟩

def pop (o : Outbox) : Option Report × Outbox :=
  match o.waiting with
  | [] => (none, o)
  | r :: rest => (some r, { o with waiting := rest })

/-- The reader leaves and what waits is lost. -/
def detach (o : Outbox) : Outbox := { o with waiting := [], attached := false }

inductive Action
  /-- A report is heard. -/
  | push (r : Report)
  | pop
  | detach
deriving DecidableEq

/-- What a row of uses answers: a report or nothing to each `pop`, and no more
than that it is done to any other. -/
def answers (o : Outbox) : List Action → List (Option (Option Report))
  | [] => []
  | .push r :: rest => none :: answers (r.dispatch o) rest
  | .pop :: rest => some o.pop.1 :: answers o.pop.2 rest
  | .detach :: rest => none :: answers o.detach rest

/-- Whatever the outcome, the report is queued as it was. -/
theorem dispatch_eq (r : Report) (o : Outbox) : r.dispatch o = o.push r := by
  obtain ⟨id, outcome⟩ := r
  cases outcome <;> rfl

/-- A full outbox drops what is new. -/
theorem push_of_isFull {o : Outbox} (h : o.isFull = true) (r : Report) : o.push r = o := by
  simp [push, h]

/-- Otherwise it comes last. -/
theorem waiting_push {o : Outbox} (h : o.attached = true) (hf : o.isFull = false) (r : Report) :
    (o.push r).waiting = o.waiting ++ [r] := by
  simp [push, h, hf]

end Outbox

end TurnRendezvous
