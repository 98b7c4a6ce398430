/-
# Rooms

A room is a match with everybody in it; a `Match` is what one of its
players sees of it (`Room.snapshot`).  At most one participant holds the
turn.  It may also rest with the open slot of the room, and then goes to
whoever takes that slot (`Room.join`).

A participant who has dismissed a room does not see it any more.
-/
import TurnRendezvous.Failure
import TurnRendezvous.Match.Basic

namespace TurnRendezvous

structure Room where
  id : MatchId
  status : Status
  participants : List PlayerId
  creator : PlayerId
  /-- Who is to move; nobody while the turn rests with the open slot or when
  the room is over. -/
  holder : Option PlayerId
  /-- Whether the next player who comes may join. -/
  openSlot : Bool
  data : Option Bytes := none
  /-- How many turns were taken.  A written version has 64 bits, and no room lives to see 2^64
  turns. -/
  version : Nat := 0
  dismissed : List PlayerId := []
deriving DecidableEq

namespace Room

/-! ## Looking -/

def snapshot (r : Room) (viewer : PlayerId) : Match :=
  { id := r.id
    status := r.status
    turn := if r.holder = some viewer then .mine else .theirs
    participants := r.participants
    creator := r.creator
    viewer
    data := r.data
    version := r.version }

def includes (r : Room) (p : PlayerId) : Bool := r.participants.contains p

/-- Whether a player takes part and has not dismissed the room. -/
def isSeenBy (r : Room) (p : PlayerId) : Bool := r.includes p && !r.dismissed.contains p

/-- The participants who still see the room. -/
def viewers (r : Room) : List PlayerId := r.participants.filter r.isSeenBy

def isOpen (r : Room) : Bool := r.openSlot && r.status.isLive

def isDeserted (r : Room) : Bool := r.participants.all r.dismissed.contains

/-! ## Opening and ending -/

/-- A player's own name and those of the invitees, each once. -/
def party (p : PlayerId) (invitees : List PlayerId) : List PlayerId :=
  invitees.foldl (fun ps q => if ps.contains q then ps else ps ++ [q]) [p]

/-- A new room, in which its creator is to move. -/
def ofRequest (id : MatchId) (p : PlayerId) (c : MatchRequest) : Room :=
  { id
    status := if c.autoMatch then .autoMatching else .active
    participants := party p c.invitees
    creator := p
    holder := some p
    openSlot := c.autoMatch }

/-- The room with one more player.  A turn that rests with the open slot goes
to whoever takes the slot. -/
def join (r : Room) (p : PlayerId) : Room :=
  { r with
    participants := r.participants ++ [p]
    openSlot := false
    status := .active
    holder := some (r.holder.getD p) }

def ended (r : Room) (status : Status) : Room :=
  { r with status, holder := none, openSlot := false }

def dismiss (r : Room) (p : PlayerId) : Room :=
  { r with dismissed := r.dismissed ++ [p] }

/-! ## Turns -/

def matchOver (id : MatchId) : Failure :=
  .refused .inactiveMatch s!"match {id.text} is over"

def notYourTurn (p : PlayerId) (id : MatchId) : Failure :=
  .refused .notYourTurn s!"{p.text} does not hold the turn on {id.text}"

/-- The turn cannot go to this player. -/
def badNext (next : PlayerId) (id : MatchId) : Failure :=
  .refused .invalidParticipant s!"{next.text} cannot take the next turn on {id.text}"

/-- There is no open slot for the turn to rest with. -/
def noOpenSlot (id : MatchId) : Failure :=
  .refused .invalidParticipant s!"{id.text} has no open auto-match slot"

/-- Whether the turn may go from `p` to `next`: to another participant, or to
the open slot. -/
def checkNext (r : Room) (p : PlayerId) : Option PlayerId → Except Failure Unit
  | some next => if next = p || !r.includes next then .error (badNext next r.id) else .ok ()
  | none => if r.openSlot then .ok () else .error (noOpenSlot r.id)

/-- Why a player cannot take a turn, if so. -/
def checkTurn (r : Room) (p : PlayerId) (next : Option PlayerId) : Except Failure Unit :=
  if !r.status.isLive then .error (matchOver r.id)
  else if r.holder ≠ some p then .error (notYourTurn p r.id)
  else r.checkNext p next

/-- The room once a turn was taken on it. -/
def withTurn (r : Room) (data : Bytes) (next : Option PlayerId) : Room :=
  { r with data := some data, version := r.version + 1, holder := next }

end Room

end TurnRendezvous
