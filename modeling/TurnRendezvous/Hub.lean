/-
# A match service in memory

All rooms that players share.  A room with an open slot waits, oldest
first, for any player who asks for a match with whoever comes.  Everybody
who still sees a room is told of every change to it, each in a feed of
their own that begins with their first subscription.

A room that was dismissed is gone for the dismissing player, as if it had
never existed; a room that everybody has dismissed is gone for good.
-/
import TurnRendezvous.Feed
import TurnRendezvous.Room

namespace TurnRendezvous

/-- All rooms, who waits in them, and who listens. -/
structure Hub where
  /-- The rooms there are, oldest first. -/
  rooms : List Room := []
  /-- The rooms with an open slot, oldest first. -/
  openIds : List MatchId := []
  /-- The news of the players who ever subscribed. -/
  listeners : List (PlayerId × Feed MatchNews) := []
  /-- The names of all rooms ever created. -/
  created : List MatchId := []

namespace Hub

/-! ## Looking -/

def room? (h : Hub) (id : MatchId) : Option Room := h.rooms.find? (·.id = id)

/-- The room of a name, if the player sees it. -/
def visible? (h : Hub) (p : PlayerId) (id : MatchId) : Option Room :=
  (h.room? id).filter (·.isSeenBy p)

/-- A match as a player sees it. -/
def snapshot? (h : Hub) (id : MatchId) (viewer : PlayerId) : Option Match :=
  (h.visible? viewer id).map (·.snapshot viewer)

/-- Whether a name is that of a room that can be joined. -/
def isOpen (h : Hub) (id : MatchId) : Bool :=
  match h.room? id with
  | some r => r.isOpen
  | none => false

def openRooms (h : Hub) : Nat := h.openIds.countP h.isOpen

/-- How much news a player's feed keeps. -/
def feedCapacity : Nat := 64

/-- The news of a player. -/
def feed (h : Hub) (p : PlayerId) : Feed MatchNews :=
  (h.listeners.lookup p).getD { capacity := feedCapacity }

/-! ## Refusals -/

def noMatch (id : MatchId) : Failure :=
  .refused .matchNotFound s!"no match {id.text}"

/-- A match of one. -/
def nobodyInvited : Failure :=
  .refused .invalidParticipant "a match needs an invitee or an auto-match slot"

/-- A player is among the own invitees. -/
def selfInvited : Failure :=
  .refused .invalidParticipant "cannot invite yourself"

/-! ## Telling the players -/

def subscribe (h : Hub) (p : PlayerId) : Hub :=
  if (h.listeners.lookup p).isSome then h
  else { h with listeners := h.listeners ++ [(p, { capacity := feedCapacity })] }

def send (h : Hub) (p : PlayerId) (news : MatchNews) : Hub :=
  { h with listeners := h.listeners.map fun (q, f) => (q, if q = p then f.send news else f) }

/-- Tells all viewers of a room what it looks like now. -/
def announce (h : Hub) (r : Room) : Hub :=
  r.viewers.foldl (fun h p => h.send p (.received (r.snapshot p))) h

/-- Tells all viewers of a room that it is gone. -/
def announceRemoval (h : Hub) (r : Room) : Hub :=
  r.viewers.foldl (fun h p => h.send p (.removed r.id)) h

/-! ## Keeping rooms -/

/-- Puts a room in the place of the one of the same name. -/
def put (h : Hub) (r : Room) : Hub :=
  { h with rooms := h.rooms.map fun q => if q.id = r.id then r else q }

/-- Takes a name out of the queue of open rooms. -/
def unqueue (h : Hub) (id : MatchId) : Hub :=
  { h with openIds := h.openIds.filter (· ≠ id) }

def drop (h : Hub) (id : MatchId) : Hub :=
  { h with rooms := h.rooms.filter (·.id ≠ id) }

/-- Adds a room under a name that was never used. -/
def add (h : Hub) (r : Room) : Hub :=
  { h with
    rooms := h.rooms ++ [r]
    openIds := if r.openSlot then h.openIds ++ [r.id] else h.openIds
    created := h.created ++ [r.id] }

def nextId (h : Hub) : MatchId := ⟨"#" ++ (h.created.length + 1).repr⟩

/-! ## What players do -/

/-- The oldest open room that a player is not in yet. -/
def joinable? (h : Hub) (p : PlayerId) : Option Room :=
  (h.openIds.filterMap h.room?).find? fun r => !r.includes p

/-- Takes the names of rooms that cannot be joined out of the queue. -/
def tidy (h : Hub) : Hub := { h with openIds := h.openIds.filter h.isOpen }

/-- Lets a player into the oldest open room there is for them. -/
def join? (h : Hub) (p : PlayerId) : Hub × Option Match :=
  let h := h.tidy
  match h.joinable? p with
  | none => (h, none)
  | some r =>
    let r := r.join p
    (((h.unqueue r.id).put r).announce r, some (r.snapshot p))

def openRoom (h : Hub) (id : MatchId) (p : PlayerId) (c : MatchRequest) : Hub × Match :=
  let r := Room.ofRequest id p c
  ((h.add r).announce r, r.snapshot p)

/-- Creates a match under the name `id`, if it comes to a new room. -/
def createAs (h : Hub) (id : MatchId) (p : PlayerId) (c : MatchRequest) :
    Hub × Except Failure Match :=
  let (h, found) := if c.autoMatch && c.invitees.isEmpty then h.join? p else (h, none)
  match found with
  | some m => (h, .ok m)
  | none =>
    if !c.autoMatch && c.invitees.isEmpty then (h, .error nobodyInvited)
    else if c.invitees.contains p then (h, .error selfInvited)
    else
      let (h, m) := h.openRoom id p c
      (h, .ok m)

/-- Creates a match, or joins one that waits for anybody. -/
def create (h : Hub) (p : PlayerId) (c : MatchRequest) : Hub × Except Failure Match :=
  h.createAs h.nextId p c

/-- A player leaves data in a room and names who is next. -/
def takeTurn (h : Hub) (p : PlayerId) (id : MatchId) (data : Bytes) (next : Option PlayerId) :
    Hub × Except Failure Match :=
  match h.visible? p id with
  | none => (h, .error (noMatch id))
  | some r =>
    match r.checkTurn p next with
    | .error e => (h, .error e)
    | .ok () =>
      let r := r.withTurn data next
      ((h.put r).announce r, .ok (r.snapshot p))

/-- A room ends before its time. -/
def endRoom (h : Hub) (r : Room) (status : Status) : Hub :=
  let r := r.ended status
  ((h.put r).unqueue r.id).announce r

def cancel (h : Hub) (p : PlayerId) (id : MatchId) : Hub × Except Failure Unit :=
  match h.visible? p id with
  | none => (h, .error (noMatch id))
  | some r =>
    if r.status.isLive then (h.endRoom r .cancelled, .ok ()) else (h, .error (Room.matchOver id))

/-- A player turns away from a room. -/
def dismiss (h : Hub) (p : PlayerId) (id : MatchId) : Hub × Except Failure Unit :=
  match h.visible? p id with
  | none => (h, .error (noMatch id))
  | some r =>
    let r := r.dismiss p
    let h := (h.put r).send p (.removed id)
    if r.isDeserted then ((h.drop id).unqueue id, .ok ()) else (h, .ok ())

/-! ## What the service does -/

/-- A room runs out of time; also one that is over already. -/
def expire (h : Hub) (id : MatchId) : Hub × Except Failure Unit :=
  match h.room? id with
  | none => (h, .error (noMatch id))
  | some r => (h.endRoom r .expired, .ok ())

/-- A room is deleted for everybody. -/
def remove (h : Hub) (id : MatchId) : Hub × Except Failure Unit :=
  match h.room? id with
  | none => (h, .error (noMatch id))
  | some r => (((h.drop id).unqueue id).announceRemoval r, .ok ())

end Hub

end TurnRendezvous
