/-
# Matches

A match as one of its players sees it: `Match` is a snapshot, taken for
`viewer`, of a room that several players share.  `MatchNews` is what a
match service tells a player about one match.
-/
import TurnRendezvous.Text.Utf8

namespace TurnRendezvous

structure MatchId where
  text : String
deriving DecidableEq

structure PlayerId where
  text : String
deriving DecidableEq

/-- Where a match is in its life. -/
inductive Status
  | autoMatching | active | cancelled | completed | expired
deriving DecidableEq

/-- Whether a match still goes on. -/
def Status.isLive : Status → Bool
  | .autoMatching => true
  | .active => true
  | _ => false

/-- Who is to move, seen by the viewer of a snapshot. -/
inductive Turn
  | mine | theirs
deriving DecidableEq

structure Match where
  id : MatchId
  status : Status
  turn : Turn
  participants : List PlayerId
  creator : PlayerId
  viewer : PlayerId
  data : Option Bytes
  version : Nat
deriving DecidableEq

namespace Match

/-- Whether the viewer is to move; nobody is in a match that is over. -/
def isMyTurn (m : Match) : Bool := m.status.isLive && m.turn == .mine

def opponent? (m : Match) : Option PlayerId :=
  m.participants.find? (· != m.viewer)

end Match

/-- What a match is created from. -/
structure MatchRequest where
  invitees : List PlayerId := []
  autoMatch : Bool := false
deriving DecidableEq

namespace MatchRequest

/-- A match with whoever comes next. -/
def autoMatching : MatchRequest := ⟨[], true⟩

/-- A match with one invited player. -/
def inviting (player : PlayerId) : MatchRequest := ⟨[player], false⟩

end MatchRequest

/-- News about one match. -/
inductive MatchNews
  | received (m : Match)
  | removed (id : MatchId)
deriving DecidableEq

def MatchNews.matchId : MatchNews → MatchId
  | .received m => m.id
  | .removed id => id

end TurnRendezvous
