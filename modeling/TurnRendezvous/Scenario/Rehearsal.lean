/-
# The scripted service on its stage

The commands that a scripted service follows; it answers none of them.
Matches are named by their snapshots.
-/
import TurnRendezvous.Matchmaker.Scripted
import TurnRendezvous.Scenario.Stage

namespace TurnRendezvous

/-- What a scripted service can be told. -/
inductive Scripted.Command
  | push (news : List MatchNews)
  | closeFeed
  /-- Holds back the turns that are handed over, or lets them go. -/
  | hold (held : Bool)
  | failTurns (f : Option Refusal)
  | failCancels (f : Option Refusal)
  | failDismissals (f : Option Refusal)
  | signIn (value : Bool)
  /-- Adds answers to requests for a match. -/
  | addRooms (rooms : List Creation)

def Scripted.perform (s : Scripted) : Scripted.Command → Scripted
  | .push news => { s with news := news.foldl Feed.send s.news }
  | .closeFeed => { s with news := s.news.close }
  | .hold held => { s with held }
  | .failTurns f => { s with turnFailure := f }
  | .failCancels f => { s with cancelFailure := f }
  | .failDismissals f => { s with dismissFailure := f }
  | .signIn value => { s with signedIn := value }
  | .addRooms rooms => { s with rooms := s.rooms ++ rooms }

instance : Stage Scripted Scripted.Command Unit Match where
  perform s c := (s.perform c, ())
  connect s _ := (s, 0)
  look _ _ m := .ok m

end TurnRendezvous
