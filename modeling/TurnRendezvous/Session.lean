/-
# Sessions

A session tries one room after another until it meets somebody.  It is
told what happens and says by its stage what it waits for: `advance` takes
it from stage to stage, and whoever runs it does in between what the stage
asks for.

A room fails a session if its agent's first outcome is no success.  The
room is then cancelled and dismissed before the next attempt, unless the
failure is the player's own, who was signed out.
-/
import TurnRendezvous.Report
import TurnRendezvous.Role
import TurnRendezvous.Timing

namespace TurnRendezvous

/-- Which end of a rendezvous a session plays. -/
inductive Side
  | host (invite : String)
  | client (localId : String)
deriving DecidableEq

namespace Side

def role : Side → Role
  | .host invite => .host invite
  | .client localId => .autoClient localId none

def isHost : Side → Bool
  | .host _ => true
  | .client _ => false

end Side

structure Meeting where
  matchId : MatchId
  invite : Option String
  /-- How many rooms were tried, this one included. -/
  attempts : Nat
  /-- Whether the room is still watched, as a host's is. -/
  hosted : Bool
deriving DecidableEq

inductive SessionStage
  | ready
  /-- A room was asked for. -/
  | joining
  /-- The room is there, its agent is not. -/
  | starting (room : Match)
  /-- An agent plays the room. -/
  | playing (id : MatchId)
  /-- The room was given up and is to be cancelled. -/
  | cancelling (id : MatchId) (why : Failure)
  /-- The room was given up and is to be dismissed. -/
  | dismissing (id : MatchId) (why : Failure)
  | ended (result : Except Failure Meeting)
  /-- The session was dropped before its end. -/
  | aborted

/-- A row of attempts to meet somebody. -/
structure Session where
  side : Side
  /-- How many rooms may be tried; `none` for any number. -/
  maxAttempts : Option UInt32
  /-- How many rooms were asked for.  A limit is a number of 32 bits that is never passed
  (`Session.attempts_le_of_midway`), so under a limit the count has 32 bits, too.  A session
  without one may leave that range: a counter of 32 bits would fail on attempt 2^32 or go
  back to 0 there, and this one counts on.  Nothing but the count that is told depends on it. -/
  attempts : Nat := 0
  /-- Why the last room failed. -/
  lastFailure : Option Failure := none
  stage : SessionStage := .ready

/-- What a session is told. -/
inductive SessionInput
  /-- Before an attempt: whether the player is signed in. -/
  | checked (signedIn : Bool)
  /-- The answer to the request for a room. -/
  | answered (room : Except Failure Match)
  /-- Whether the agent was started. -/
  | started (ok : Bool)
  /-- The agent's first outcome, and whether the player is signed in now. -/
  | heard (r : Report) (signedIn : Bool)
  /-- The agent ended without an outcome. -/
  | silenced
  | cancelled
  | dismissed

namespace Session

/-- Whether all the attempts were made that there may be. -/
def isExhausted (s : Session) : Bool :=
  match s.maxAttempts with
  | none => false
  | some n => decide (n.toNat ≤ s.attempts)

def finish (s : Session) (result : Except Failure Meeting) : Session :=
  { s with stage := .ended result }

def retry (s : Session) (why : Failure) : Session :=
  { s with lastFailure := some why, stage := .ready }

/-- Begins an attempt, unless there may be no more of them or the player is
signed out. -/
def begin (s : Session) (signedIn : Bool) : Session :=
  if s.isExhausted then s.finish (.error (.exhausted s.attempts s.lastFailure))
  else if signedIn then { s with attempts := s.attempts + 1, stage := .joining }
  else s.finish (.error .notSignedIn)

/-- Takes the answer to the request for a room.  A failure that may pass costs
an attempt. -/
def join (s : Session) : Except Failure Match → Session
  | .ok room => { s with stage := .starting room }
  | .error e => if e.isTransient then s.retry e else s.finish (.error e)

/-- Whether a failure is the room's and says nothing about the player. -/
def isRoomFailure : Failure → Bool
  | .protocolViolation _ => true
  | .timeout => true
  | .matchRemoved => true
  | _ => false

/-- Judges a room by the first outcome of its agent. -/
def judge (s : Session) (id : MatchId) (r : Report) (signedIn : Bool) : Session :=
  match r.toResult with
  | .ok invite =>
    s.finish (.ok { matchId := id, invite, attempts := s.attempts, hosted := s.side.isHost })
  | .error why =>
    if isRoomFailure why || signedIn then { s with stage := .cancelling id why }
    else s.finish (.error why)

/-- Takes a session to its next stage.  What does not belong to the stage that
it is in changes nothing. -/
def advance (s : Session) : SessionInput → Session
  | .checked signedIn =>
    match s.stage with
    | .ready => s.begin signedIn
    | _ => s
  | .answered room =>
    match s.stage with
    | .joining => s.join room
    | _ => s
  | .started ok =>
    match s.stage with
    | .starting room =>
      if ok then { s with stage := .playing room.id } else s.finish (.error .notSignedIn)
    | _ => s
  | .heard r signedIn =>
    match s.stage with
    | .playing id => s.judge id r signedIn
    | _ => s
  | .silenced =>
    match s.stage with
    | .playing _ => s.finish (.error .serviceClosed)
    | _ => s
  | .cancelled =>
    match s.stage with
    | .cancelling id why => { s with stage := .dismissing id why }
    | _ => s
  | .dismissed =>
    match s.stage with
    | .dismissing _ why => s.retry why
    | _ => s

def isOver (s : Session) : Bool :=
  match s.stage with
  | .ended _ => true
  | .aborted => true
  | _ => false

end Session

end TurnRendezvous
