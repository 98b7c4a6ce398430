/-
# Failures of a rendezvous

`Failure` lists the causes; its wording is in `message?` alone.
Data that cannot be read (`serialization`) has no wording here.
-/
import TurnRendezvous.ServiceCode

namespace TurnRendezvous

/-- Why a rendezvous, or a request to the match service, failed. -/
inductive Failure
  /-- A player left something in the match that cannot follow. -/
  | protocolViolation (detail : String)
  /-- The match service refused a request. -/
  | service (detail : String) (code : Option ServiceCode)
  | notSignedIn
  | serviceClosed
  | timeout
  | matchRemoved
  /-- All rooms allowed were tried, and no failure is known of any. -/
  | attemptsExhausted (attempts : Nat)
  /-- All rooms allowed were tried; `last` is why the last one failed. -/
  | attemptsFailed (attempts : Nat) (last : Failure)
  /-- Text that is no JSON of the expected kind. -/
  | serialization
  | io (detail : String)
deriving DecidableEq

namespace Failure

def refused (code : ServiceCode) (detail : String) : Failure :=
  .service detail (some code)

/-- The end of a row of attempts, the last of which may have failed. -/
def exhausted (attempts : Nat) : Option Failure → Failure
  | none => .attemptsExhausted attempts
  | some last => .attemptsFailed attempts last

/-- The wording of the end of a row of attempts. -/
def exhaustedMessage (attempts : Nat) : String :=
  s!"no rendezvous after {attempts.repr} auto-match attempts"

/-- The text of an error. -/
def message? : Failure → Option String
  | .protocolViolation detail => some s!"protocol violation: {detail}"
  | .service detail _ => some s!"match service error: {detail}"
  | .notSignedIn => some "not signed in to the match service"
  | .serviceClosed => some "match service closed its turn update stream"
  | .timeout => some "timed out waiting for a turn"
  | .matchRemoved => some "match was removed"
  | .attemptsExhausted attempts => some (exhaustedMessage attempts)
  | .attemptsFailed attempts _ => some (exhaustedMessage attempts)
  | .serialization => none
  | .io detail => some s!"I/O error: {detail}"

/-- The service code that an error amounts to. -/
def code? : Failure → Option ServiceCode
  | .service _ code => code
  | .notSignedIn => some .signInRequired
  | _ => none

/-- Whether starting over may help. -/
def isTransient : Failure → Bool
  | .service _ (some code) => code.isTransient
  | .service _ none => true
  | .notSignedIn => false
  | .serviceClosed => false
  | .attemptsExhausted _ => false
  | .attemptsFailed .. => false
  | .serialization => false
  | .protocolViolation _ => true
  | .timeout => true
  | .matchRemoved => true
  | .io _ => true

/-- Whether an error stands for another one beneath it. -/
def hasSource : Failure → Bool
  | .attemptsFailed .. => true
  | .serialization => true
  | .io _ => true
  | _ => false

/-- The text of the error beneath, where it has one here. -/
def sourceMessage? : Failure → Option String
  | .attemptsFailed _ last => last.message?
  | .io detail => some detail
  | _ => none

end Failure

end TurnRendezvous
