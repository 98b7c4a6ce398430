/-
# Error codes of a match service
-/
import TurnRendezvous.Json.Record

namespace TurnRendezvous

open Json (Value)

inductive ServiceCode
  | signInRequired | networkError
  | notYourTurn | inactiveMatch | matchNotFound | invalidParticipant | invalidMatchData
  | serviceUnavailable | internalError
deriving DecidableEq

namespace ServiceCode

def name : ServiceCode → String
  | .signInRequired => "SIGN_IN_REQUIRED"
  | .networkError => "NETWORK_ERROR"
  | .notYourTurn => "NOT_YOUR_TURN"
  | .inactiveMatch => "INACTIVE_MATCH"
  | .matchNotFound => "MATCH_NOT_FOUND"
  | .invalidParticipant => "INVALID_PARTICIPANT"
  | .invalidMatchData => "INVALID_MATCH_DATA"
  | .serviceUnavailable => "SERVICE_UNAVAILABLE"
  | .internalError => "INTERNAL_ERROR"

def all : List ServiceCode :=
  [.signInRequired, .networkError, .notYourTurn, .inactiveMatch, .matchNotFound,
    .invalidParticipant, .invalidMatchData, .serviceUnavailable, .internalError]

def ofName? (s : String) : Option ServiceCode := all.find? (·.name == s)

def toJson (c : ServiceCode) : Value := .text c.name

def ofJson? (v : Value) : Option ServiceCode := v.variant?.bind ofName?

/-- A sentence for the player. -/
def description : ServiceCode → String
  | .signInRequired =>
    "The local player is not signed in to the match service. Sign in before starting a match."
  | .networkError =>
    "The match service could not be reached. Check connectivity and try again."
  | .notYourTurn =>
    "A turn was submitted for a match on which it is not the local player's turn."
  | .inactiveMatch =>
    "The match is no longer active. It was cancelled, completed, or expired."
  | .matchNotFound =>
    "The match could not be found. It may have been dismissed or never existed."
  | .invalidParticipant => "The targeted participant is not part of the match."
  | .invalidMatchData => "The submitted match data was rejected by the service."
  | .serviceUnavailable =>
    "The match service is temporarily unavailable. Please try again in a few moments."
  | .internalError =>
    "The match service reported an internal error. Please try again later."

def isTransient : ServiceCode → Bool
  | .signInRequired => false
  | _ => true

end ServiceCode

end TurnRendezvous
