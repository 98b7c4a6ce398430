/-
# Match services

What agents and sessions ask of a match service.  A service is a state;
a call goes through a handle (`Caller`), which stands for one player's
connection.  Every call is answered at once, with two exceptions: creating
a match may take a while (`Creation.delay`), and the service may hold back
the turns that are handed to it (`holdsTurns`).
-/
import TurnRendezvous.Failure
import TurnRendezvous.Watch

namespace TurnRendezvous

/-- A handle of a match service. -/
abbrev Caller := Nat

/-- The answer to a request for a match. -/
structure Creation where
  /-- How long the answer takes; `none` for no time at all. -/
  delay : Option Duration := none
  /-- Whether the player is signed out when the answer comes. -/
  signsOut : Bool := false
  result : Except Failure Match

class Matchmaker (σ : Type) where
  isSignedIn : σ → Caller → Bool
  /-- The player's sign-in is lost. -/
  signOut : σ → Caller → σ
  /-- The player becomes a reader of news. -/
  subscribe : σ → Caller → σ
  feed : σ → Caller → Feed MatchNews
  createMatch : σ → Caller → MatchRequest → σ × Creation
  /-- Whether turns that are handed over are held back. -/
  holdsTurns : σ → Bool
  takeTurn : σ → Caller → MatchId → Bytes → Option PlayerId → σ × Except Failure Unit
  cancelMatch : σ → Caller → MatchId → σ × Except Failure Unit
  dismissMatch : σ → Caller → MatchId → σ × Except Failure Unit

end TurnRendezvous
