/-
# A match service that follows a script

A service for rehearsals.  It has one player, sends the news that it is
told to send, answers requests for a match from a list of rooms, and
accepts everything else unless it is told to fail.  Turns that are handed
to it can be held back for a while.
-/
import TurnRendezvous.Matchmaker.Basic

namespace TurnRendezvous

/-- How a kind of call fails. -/
structure Refusal where
  error : Failure
  /-- Whether each failing call also signs the player out. -/
  signsOut : Bool := false
deriving DecidableEq

/-- The state of a scripted service. -/
structure Scripted where
  signedIn : Bool := true
  news : Feed MatchNews
  held : Bool := false
  turnFailure : Option Refusal := none
  cancelFailure : Option Refusal := none
  dismissFailure : Option Refusal := none
  /-- The answers to the next requests for a match. -/
  rooms : List Creation := []

namespace Scripted

/-- A service whose feed keeps `capacity` pieces of news. -/
def withCapacity (capacity : Nat) : Scripted := { news := .withCapacity capacity }

/-- The answer once the list of rooms has run out. -/
def noRoom : Failure := .refused .serviceUnavailable "no room scripted"

def nextRoom (s : Scripted) : Scripted × Creation :=
  match s.rooms with
  | [] => (s, { result := .error noRoom })
  | c :: rest => ({ s with rooms := rest }, c)

/-- Answers a call that may be told to fail. -/
def answer (s : Scripted) : Option Refusal → Scripted × Except Failure Unit
  | none => (s, .ok ())
  | some f =>
    (if f.signsOut then { s with signedIn := false } else s, .error f.error)

end Scripted

instance : Matchmaker Scripted where
  isSignedIn s _ := s.signedIn
  signOut s _ := { s with signedIn := false }
  subscribe s _ := s
  feed s _ := s.news
  createMatch s _ _ := s.nextRoom
  holdsTurns s := s.held
  takeTurn s _ _ _ _ := s.answer s.turnFailure
  cancelMatch s _ _ := s.answer s.cancelFailure
  dismissMatch s _ _ := s.answer s.dismissFailure

end TurnRendezvous
