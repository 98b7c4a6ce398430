/-
# Agents

An agent is the owner's end of one rendezvous: it can be started once, it
can be detached at any time, and its gate decides which outcomes still
reach the owner.  The rendezvous itself runs apart from it and takes its
notices from a queue, one per step.

To detach an agent is to close the gate at once and to tell the
rendezvous by a notice at the end of the queue.
-/
import TurnRendezvous.Agent.Rendezvous

namespace TurnRendezvous

/-- An agent with the rendezvous that it drives. -/
structure Agent where
  timing : Timing
  /-- The role, until the agent is started. -/
  role : Option Role
  gate : Gate := {}
  /-- The match that it was started on, until it is given up. -/
  matchId : Option MatchId := none
  /-- Whether the rendezvous can be told to detach. -/
  attached : Bool := false
  /-- The notices on their way to the rendezvous, oldest first. -/
  queue : List Notice := []
  rendezvous : Option Rendezvous := none

/-- What a step of an agent does to the world outside. -/
inductive Effect
  | subscribed
  | submitted (data : Bytes) (next : Option PlayerId)
  | dismissed
  /-- An outcome reaches the owner. -/
  | delivered (r : Report)
deriving DecidableEq

namespace Agent

def ofRole (role : Role) (timing : Timing) : Agent := { timing, role := some role }

def phase (a : Agent) : Phase :=
  match a.rendezvous with
  | some r => r.phase
  | none => .idle

def isFinished (a : Agent) : Bool := a.phase == .finished

/-- The phase `p`, or the end, once it is reached. -/
def reached? (a : Agent) (p : Phase) : Option Phase :=
  if a.phase = p || a.isFinished then some a.phase else none

/-! ## The owner's calls -/

/-- Starts an agent on a snapshot, with a place in the service's feed that is
taken now.  An agent is started once, and only for a player who is signed in. -/
def start? (a : Agent) (signedIn : Bool) (m : Match) (position : Nat) : Option Agent :=
  if signedIn then
    a.role.map fun role =>
      { a with
        role := none
        matchId := some m.id
        attached := true
        rendezvous := some
          { matchId := m.id
            role
            timing := a.timing
            dismisses := a.timing.dismissOnFinish.getD role.leavesByDefault
            progress := .fresh m position } }
  else none

/-- Closes the gate and tells the rendezvous. -/
def detach (a : Agent) : Agent :=
  { a with
    gate := a.gate.close.2
    attached := false
    queue := if a.attached then a.queue ++ [.detach] else a.queue }

/-- Detaches an agent that will not come back to its match. -/
def abandonMatch (a : Agent) : Agent := { a.detach with matchId := none }

/-! ## Steps of the rendezvous -/

/-- Lets an output through the gate, if it has to pass it. -/
def output (id : MatchId) (gate : Gate) : Output → List Effect × Gate
  | .subscribed => ([.subscribed], gate)
  | .submitted data next => ([.submitted data next], gate)
  | .dismissed => ([.dismissed], gate)
  | .reported o => (if gate.closed then [] else [.delivered ⟨id, o⟩], gate)
  | .concluded o => (if gate.closed then [] else [.delivered ⟨id, o⟩], gate.close.2)

/-- Lets a row of outputs through the gate. -/
def outputs (id : MatchId) (gate : Gate) : List Output → List Effect × Gate
  | [] => ([], gate)
  | o :: rest =>
    let (effects, gate) := output id gate o
    let (more, gate) := outputs id gate rest
    (effects ++ more, gate)

/-- The agent after a step of its rendezvous.  A rendezvous that is over
leaves a closed gate behind. -/
def absorb (a : Agent) (step : Rendezvous × List Output) : Agent × List Effect :=
  let (r, out) := step
  let (effects, gate) := outputs r.matchId a.gate out
  let gate := if r.progress = .ended then gate.close.2 else gate
  ({ a with rendezvous := some r, gate }, effects)

/-- The next step of the rendezvous, if there is anything to do, and the agent
without the notice that it takes. -/
def next? (a : Agent) (s : Surroundings) : Option (Agent × Rendezvous × List Output) :=
  match a.rendezvous with
  | none => none
  | some r =>
    match r.progress, a.queue with
    | .fresh m position, _ => some (a, r.firstStep s m position)
    | .underway, n :: queue => some ({ a with queue }, r.react s n)
    | _, _ => none

def step? (a : Agent) (s : Surroundings) : Option (Agent × List Effect) :=
  (a.next? s).map fun (a, step) => a.absorb step

/-! ## Background work -/

/-- A background task, if its work is still going on. -/
def task? (a : Agent) (i : JobId) : Option Task := do
  let r ← a.rendezvous
  let j ← r.jobs.get? i
  if j.isWorking then some j.work else none

/-- The work of a background task goes on. -/
def progress (a : Agent) (i : JobId) (work : Work) : Agent :=
  { a with
    rendezvous := a.rendezvous.map fun r =>
      { r with jobs := r.jobs.modify i (·.progress ({ · with work })) } }

/-- A background task comes to an end, and its notice joins the queue unless
the task was cancelled. -/
def complete (a : Agent) (i : JobId) (how : TaskEnd) : Agent :=
  match a.rendezvous, a.task? i with
  | some r, some t =>
    let (delivered, jobs) := r.jobs.complete i
    { a with
      rendezvous := some { r with jobs }
      queue := if delivered then a.queue ++ [.done t.generation how] else a.queue }
  | _, _ => a

end Agent

end TurnRendezvous
