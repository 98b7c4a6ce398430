/-
# A rendezvous in progress

`Rendezvous` is the state of one match that is being driven to an outcome:
the role, the payload of the last turn, the turn that is on its way, and
all background work.  It moves in steps: `firstStep` looks at the snapshot
that it was started on, and `react` takes one notice.  A step yields the
state afterwards and, in order, what it does to the world (`Output`).

A notice of an older generation than the current one is dropped.  An
outcome that ends the rendezvous (`conclude`) first lets go of everything:
watches, probes and timers are cancelled, while a turn that is on its way
is abandoned and still reaches the service.
-/
import TurnRendezvous.Agent.Task
import TurnRendezvous.Jitter
import TurnRendezvous.Job.Registry
import TurnRendezvous.Report
import TurnRendezvous.Role
import TurnRendezvous.Timing

namespace TurnRendezvous

inductive Output
  | subscribed
  | submitted (data : Bytes) (next : Option PlayerId)
  | dismissed
  /-- An outcome with more to come. -/
  | reported (o : Outcome)
  /-- The last outcome. -/
  | concluded (o : Outcome)
deriving DecidableEq

structure Surroundings where
  now : Instant
  /-- Where a new reader of the service's feed starts. -/
  position : Nat
  /-- The randomness for the next wait. -/
  words : List UInt64 := []
deriving DecidableEq

/-- A turn that is on its way. -/
structure Submission where
  nextWait : Patience
  signal : Option Signal
  /-- A place in the feed taken before the turn was handed over, so that no
  answer to it can be missed. -/
  position : Nat
deriving DecidableEq

/-- How far the driving of a match has come. -/
inductive Progress
  /-- The snapshot it is started on has not been looked at. -/
  | fresh (m : Match) (position : Nat)
  | underway
  | ended
deriving DecidableEq

structure Rendezvous where
  matchId : MatchId
  role : Role
  timing : Timing
  /-- Whether the match is dismissed after success. -/
  dismisses : Bool
  progress : Progress
  phase : Phase := .idle
  /-- The payload of the last turn, as it was found. -/
  oldData : Option Payload := none
  /-- How many times a phase was entered or a turn handed over; 2^64 is out of reach. -/
  generation : Nat := 0
  pending : Option Submission := none
  probed : Option String := none
  /-- The job that hands the current turn over. -/
  submission : Option JobId := none
  /-- The jobs that end with the current phase. -/
  watches : JobSet := {}
  jobs : Registry Task := {}

namespace Rendezvous

/-! ## Endings -/

/-- Cancels what can be cancelled and forgets everything in flight. -/
def letGo (r : Rendezvous) : Rendezvous :=
  let (watches, jobs) := r.watches.cancelAll r.jobs
  let jobs :=
    match r.submission with
    | some i => jobs.abandon i
    | none => jobs
  { r with
    watches, jobs
    submission := none
    pending := none
    probed := none
    oldData := none
    phase := .finished }

def leave (r : Rendezvous) : Rendezvous := { r.letGo with progress := .ended }

def conclude (r : Rendezvous) (o : Outcome) : Rendezvous × List Output :=
  (r.leave, [.concluded o])

/-- Ends with success and dismisses the match, if it is to be dismissed. -/
def succeed (r : Rendezvous) (invite : Option String) : Rendezvous × List Output :=
  (r.leave, (if r.dismisses then [.dismissed] else []) ++ [.concluded (.complete invite)])

/-! ## Starting background work -/

/-- Enters a phase, in a new generation. -/
def enter (r : Rendezvous) (phase : Phase) : Rendezvous :=
  { r with phase, generation := r.generation + 1 }

/-- Starts work of the current generation that ends with the phase. -/
def watch (r : Rendezvous) (work : Work) : Rendezvous :=
  let (i, jobs) := r.jobs.spawn { generation := r.generation, work }
  { r with jobs, watches := r.watches.push r.jobs i }

def awaitTurn (r : Rendezvous) (now : Instant) (position : Nat) (timeout : Option Duration) :
    Rendezvous :=
  (r.enter .waitingForTurn).watch (.awaitTurn (.arm now r.matchId position timeout))

def awaitEnd (r : Rendezvous) (position : Nat) : Rendezvous :=
  (r.enter .monitoring).watch (.awaitEnd { matchId := r.matchId, position })

def submit (r : Rendezvous) (d : Decision) (next : Option PlayerId) (position : Nat) :
    Rendezvous × List Output :=
  let r := { r with generation := r.generation + 1 }
  let (i, jobs) :=
    r.jobs.spawn { generation := r.generation, work := .submit d.data.encode next false }
  ({ r with
      jobs
      submission := some i
      pending := some { nextWait := d.nextWait, signal := d.signal, position } },
    [.submitted d.data.encode next])

/-! ## Turns -/

def playTurn (r : Rendezvous) (m : Match) (position : Nat) : Rendezvous × List Output :=
  let r := { r with phase := .processingTurn }
  let found := Payload.decode m.data
  if found.state.mayFollow (r.oldData.map Payload.state) then
    let d := r.role.onTurn m found r.oldData r.timing.defaultTurnWait
    let r := { r with role := d.role, oldData := some found }
    if d.signal = some .matchInvalid then r.conclude .matchInvalid
    else r.submit d m.opponent? position
  else r.conclude .matchInvalid

/-- Probes the peer behind an invite.  Only an auto-match client asks for it;
any other role takes the invite as it is. -/
def verify (r : Rendezvous) (now : Instant) (invite : String) : Rendezvous × List Output :=
  match r.role with
  | .autoClient localId _ =>
    let r := (r.enter .verifying).watch (.probe invite localId none)
    let r := r.watch (.timer (now + r.timing.probeTimeout.nanos))
    ({ r with probed := some invite }, [])
  | _ => r.conclude (.complete (some invite))

/-- Goes on to what the role waits for after a turn. -/
def goOn (r : Rendezvous) (s : Surroundings) (p : Submission) : Rendezvous × List Output :=
  match p.nextWait with
  | .indefinite => (r.awaitTurn s.now p.position none, [])
  | .after base =>
    let (wait, _) := Jitter.spread base r.timing.jitterMax s.words
    (r.awaitTurn s.now p.position (some wait), [])
  | .finished =>
    if r.dismisses then (r.leave, [.dismissed]) else (r.awaitEnd p.position, [])

/-- The service has accepted the turn. -/
def turnAccepted (r : Rendezvous) (s : Surroundings) : Rendezvous × List Output :=
  match r.pending with
  | none => (r, [])
  | some p =>
    let r := { r with pending := none }
    match p.signal with
    | some (.verifyPeer invite) => r.verify s.now invite
    | some (.complete invite) =>
      if p.nextWait.isFinished && r.dismisses then r.succeed invite
      else
        let (r, out) := r.goOn s p
        (r, .reported (.complete invite) :: out)
    | _ => r.goOn s p

/-! ## What a task's end leads to -/

def turnSettled (r : Rendezvous) (s : Surroundings) : TurnResult → Rendezvous × List Output
  | .myTurn m =>
    let (r, out) := r.playTurn m s.position
    (r, .subscribed :: out)
  | .timedOut => r.conclude .timeout
  | .removed => r.conclude .matchRemoved
  | .serviceClosed => r.conclude (.fatalError .serviceClosed)

/-- The service has answered a turn. -/
def turnAnswered (r : Rendezvous) (s : Surroundings) (result : Except Failure Unit) :
    Rendezvous × List Output :=
  let r := { r with submission := none }
  match result with
  | .ok () => r.turnAccepted s
  | .error e => r.conclude (.fatalError e)

def probeSettled (r : Rendezvous) (answer : ProbeAnswer) : Rendezvous × List Output :=
  let (watches, jobs) := r.watches.cancelAll r.jobs
  let invite := r.probed
  let r := { r with watches, jobs, probed := none }
  if answer.isReachable then r.succeed invite else r.conclude .matchInvalid

def matchGone (r : Rendezvous) : Departure → Rendezvous × List Output
  | .removed => r.conclude .matchRemoved
  | .ended _ => r.conclude .matchRemoved
  | .serviceClosed => r.conclude (.fatalError .serviceClosed)

/-! ## Steps -/

def firstStep (r : Rendezvous) (s : Surroundings) (m : Match) (position : Nat) :
    Rendezvous × List Output :=
  let r := { r with progress := .underway }
  if !m.status.isLive then r.conclude .matchRemoved
  else if m.isMyTurn then r.playTurn m position
  else (r.awaitTurn s.now position r.timing.firstTurnWait.limit?, [])

/-- A step on the end of a task of the current generation. -/
def taskDone (r : Rendezvous) (s : Surroundings) : TaskEnd → Rendezvous × List Output
  | .turn result => r.turnSettled s result
  | .submitted result => r.turnAnswered s result
  | .probed answer => r.probeSettled answer
  | .timeUp => r.conclude .matchInvalid
  | .ended how => r.matchGone how

def react (r : Rendezvous) (s : Surroundings) : Notice → Rendezvous × List Output
  | .detach => (r.leave, [])
  | .done generation how => if generation = r.generation then r.taskDone s how else (r, [])

end Rendezvous

end TurnRendezvous
