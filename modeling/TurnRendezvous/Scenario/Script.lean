/-
# Scripts

A script is a row of steps for agents and sessions that have names, and
for the service beneath them.  An agent may be given reactions: what its
owner does from inside the callback when an outcome of some kind arrives.
-/
import TurnRendezvous.World.Basic

namespace TurnRendezvous

inductive OutcomeKind
  | complete | matchInvalid | fatalError | timeout | matchRemoved
deriving DecidableEq

def Outcome.kind : Outcome → OutcomeKind
  | .complete _ => .complete
  | .matchInvalid => .matchInvalid
  | .fatalError _ => .fatalError
  | .timeout => .timeout
  | .matchRemoved => .matchRemoved

/-- What an owner does inside a callback; `ϱ` says which match is meant. -/
inductive Reaction (ϱ : Type)
  | detach
  | drop
  /-- Starts another agent on a match. -/
  | start (agent : String) (room : ϱ)

/-- The reactions of an owner. -/
abbrev Reactions (ϱ : Type) := List (OutcomeKind × Reaction ϱ)

/-- A step of a script; `κ` are the service's own commands. -/
inductive Step (κ ϱ : Type)
  | create (agent player : String) (role : Role) (timing : Timing) (probes : ProbeScript)
      (reactions : Reactions ϱ)
  | start (agent : String) (room : ϱ)
  | detach (agent : String)
  | stop (agent : String)
  | drop (agent : String)
  /-- Asks whether an agent has reached a phase, or its end. -/
  | waitPhase (agent : String) (phase : Phase)
  | inspect (agent : String)
  | session (name player : String) (side : Side) (config : SearchConfig) (probes : ProbeScript)
  | abort (session : String)
  /-- Asks whether the room that a session left behind is gone. -/
  | closed (session : String)
  | close (session : String)
  | dropHosted (session : String)
  | service (command : κ)
  | advance (wait : Duration)
  | settle
  | batch (steps : List (Step κ ϱ))

/-- What a step answers; `ρ` are the service's own answers. -/
inductive Reply (ρ : Type)
  | nothing
  | flag (b : Bool)
  | refused (why : Failure)
  | phase (p : Option Phase)
  | state (matchId : Option MatchId) (phase : Phase)
  | session (maxAttempts : Option UInt32) (isHost : Bool)
  | report (r : Option Report)
  | service (answer : ρ)
  | noAgent
  | noHostedRoom
  | all (replies : List (Reply ρ))

/-- What an owner was told. -/
structure Delivery where
  agent : String
  report : Report
  /-- Set by a reaction that starts an agent: whether it was started, if there
  is such an agent at all. -/
  started : Option (Option Bool) := none

/-- What is new after a step. -/
structure Answer (ρ : Type) where
  result : Reply ρ
  deliveries : List Delivery
  calls : List Call
  sessions : List (String × Except Failure Meeting)
  phases : List (String × Phase)
  subscriptions : Nat

/-- Puts in order by a name; equal names stay in the order they are in. -/
def sortByName {α : Type} (name : α → String) (l : List α) : List α :=
  l.mergeSort fun a b => decide (name a ≤ name b)

/-- The player on whose behalf a probe is made, for a call of a probe. -/
def Call.probedFor? : Call → Option String
  | .probe _ localId => some localId
  | .probeDone _ localId => some localId
  | _ => none

/-- The calls of probes, in the order of those on whose behalf they are made. -/
def Answer.probeCalls {ρ : Type} (a : Answer ρ) : List Call :=
  sortByName (fun c => c.probedFor?.getD "") (a.calls.filter (·.probedFor?.isSome))

end TurnRendezvous
