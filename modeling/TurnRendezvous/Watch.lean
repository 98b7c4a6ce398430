/-
# Watching a feed

Two ways of waiting for something to happen to a match.  A turn watch
ends with the viewer's turn or with anything that rules it out; an end
watch only sees the match go away.

Each is settled by the first news that means something to it
(`TurnWatch.verdict`, `EndWatch.verdict`).  What was sent counts before
the end of the feed does, and that before the deadline.
-/
import TurnRendezvous.Duration
import TurnRendezvous.Feed
import TurnRendezvous.Match.Basic

namespace TurnRendezvous

inductive TurnResult
  | myTurn (m : Match)
  | timedOut
  /-- The match is over or gone. -/
  | removed
  | serviceClosed
deriving DecidableEq

/-- How a watched match goes away. -/
inductive Departure
  | removed
  | ended (status : Status)
  | serviceClosed
deriving DecidableEq

structure TurnWatch where
  matchId : MatchId
  position : Nat
  /-- When it gives up; `none` for never. -/
  deadline : Option Instant
deriving DecidableEq

namespace TurnWatch

def arm (now : Instant) (matchId : MatchId) (position : Nat) (timeout : Option Duration) :
    TurnWatch :=
  { matchId, position, deadline := timeout.map fun d => now + d.nanos }

/-- What news means to a watch on `id`, if anything. -/
def verdict (id : MatchId) : MatchNews → Option TurnResult
  | .removed r => if r = id then some .removed else none
  | .received m =>
    if m.id ≠ id then none
    else if !m.status.isLive then some .removed
    else if m.isMyTurn then some (.myTurn m)
    else none

/-- Whether the deadline has come. -/
def isOverdue (w : TurnWatch) (now : Instant) : Bool :=
  match w.deadline with
  | none => false
  | some due => decide (due ≤ now)

/-- How a watch ends that looks at its feed now, if it ends. -/
def result? (w : TurnWatch) (feed : Feed MatchNews) (now : Instant) : Option TurnResult :=
  match (feed.unread w.position).findSome? (verdict w.matchId) with
  | some r => some r
  | none =>
    if feed.closed then some .serviceClosed
    else if w.isOverdue now then some .timedOut
    else none

def caughtUp (w : TurnWatch) (feed : Feed MatchNews) : TurnWatch :=
  { w with position := feed.position }

end TurnWatch

/-- A watch for the end of a match. -/
structure EndWatch where
  matchId : MatchId
  position : Nat
deriving DecidableEq

namespace EndWatch

/-- What news means to a watch on `id`, if anything. -/
def verdict (id : MatchId) : MatchNews → Option Departure
  | .removed r => if r = id then some .removed else none
  | .received m => if m.id = id && !m.status.isLive then some (.ended m.status) else none

/-- How a watch ends that looks at its feed now, if it ends. -/
def result? (w : EndWatch) (feed : Feed MatchNews) : Option Departure :=
  match (feed.unread w.position).findSome? (verdict w.matchId) with
  | some r => some r
  | none => if feed.closed then some .serviceClosed else none

def caughtUp (w : EndWatch) (feed : Feed MatchNews) : EndWatch :=
  { w with position := feed.position }

end EndWatch

end TurnRendezvous
