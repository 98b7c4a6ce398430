/-
# The lobby on its stage

A hall is a lobby with named readers of news.  Its commands are the calls
that players make through their handles, and what the service itself may
do to a room.  Matches are named by their ids.
-/
import TurnRendezvous.Matchmaker.Lobby
import TurnRendezvous.Scenario.Stage

namespace TurnRendezvous

/-- A named reader of a player's news. -/
structure Reader where
  name : String
  player : PlayerId
  position : Nat
deriving DecidableEq

structure Hall extends Lobby where
  readers : List Reader := []

/-- What a lobby can be told; players are meant by the names of their handles. -/
inductive Hall.Command
  | connect (name : String) (player : PlayerId)
  /-- Makes a handle that shares the account of another one. -/
  | clone (name source : String)
  | create (player : String) (config : MatchRequest)
  | takeTurn (player : String) (id : MatchId) (data : Bytes) (next : Option PlayerId)
  | fetch (player : String) (id : MatchId)
  | cancel (player : String) (id : MatchId)
  | dismiss (player : String) (id : MatchId)
  | expire (id : MatchId)
  | remove (id : MatchId)
  | snapshot (id : MatchId) (viewer : PlayerId)
  | openRooms
  | openRoomsFor (player : String)
  | signIn (player : String) (value : Bool)
  | isSignedIn (player : String)
  | subscribe (player : String) (reader : String)
  /-- Reads what waits for a reader, up to a limit. -/
  | receive (reader : String) (limit : Option Nat)
  | unsubscribe (reader : String)

/-- What a lobby answers. -/
inductive Hall.Answer
  | nothing
  | room (result : Except Failure Match)
  | done (result : Except Failure Unit)
  | seen (m : Option Match)
  | count (n : Nat)
  | flag (b : Bool)
  | player (p : PlayerId)
  | news (us : List MatchNews)
  | noReader

namespace Hall

def resolve (h : Hall) (name : String) : Hall × Caller :=
  let (lobby, c) := h.toLobby.resolve name
  ({ h with toLobby := lobby }, c)

/-- Lets a player act, by the name of a handle. -/
def act {α : Type} (h : Hall) (name : String)
    (f : Lobby → Caller → Lobby × Except Failure α) :
    Hall × Except Failure α :=
  let (h, c) := h.resolve name
  let (lobby, result) := f h.toLobby c
  ({ h with toLobby := lobby }, result)

/-- Lets the service act on the hub. -/
def manage (h : Hall) (f : Hub → Hub × Except Failure Unit) :
    Hall × Hall.Answer :=
  let (hub, result) := f h.hub
  ({ h with hub }, .done result)

/-- Reads at most `limit` pieces of news for the reader `r`. -/
def readUpTo (h : Hall) (r : Reader) : Nat → List MatchNews × Reader
  | 0 => ([], r)
  | limit + 1 =>
    match (h.hub.feed r.player).read r.position with
    | (.item u, position) =>
      let (us, r) := h.readUpTo { r with position } limit
      (u :: us, r)
    | _ => ([], r)

def setReader (h : Hall) (r : Reader) : Hall :=
  { h with readers := r :: h.readers.filter (·.name ≠ r.name) }

def perform (h : Hall) : Hall.Command → Hall × Hall.Answer
  | .connect name player =>
    let (lobby, _) := h.toLobby.connect name player
    ({ h with toLobby := lobby }, .player player)
  | .clone name source =>
    let (lobby, c) := h.toLobby.cloneHandle name source
    ({ h with toLobby := lobby }, .player (lobby.player c))
  | .create player config =>
    let (h, result) := h.act player fun l c => l.create c config
    (h, .room result)
  | .takeTurn player id data next =>
    let (h, result) := h.act player fun l c => l.takeTurn c id data next
    (h, .room result)
  | .fetch player id =>
    let (h, result) := h.act player fun l c => (l, l.fetch c id)
    (h, .room result)
  | .cancel player id =>
    let (h, result) := h.act player fun l c => l.cancel c id
    (h, .done result)
  | .dismiss player id =>
    let (h, result) := h.act player fun l c => l.dismiss c id
    (h, .done result)
  | .expire id => h.manage fun hub => hub.expire id
  | .remove id => h.manage fun hub => hub.remove id
  | .snapshot id viewer => (h, .seen (h.hub.snapshot? id viewer))
  | .openRooms => (h, .count h.hub.openRooms)
  | .openRoomsFor player =>
    let (h, _) := h.resolve player
    (h, .count h.hub.openRooms)
  | .signIn player value =>
    let (h, c) := h.resolve player
    let lobby := h.toLobby.setSignedIn c value
    ({ h with toLobby := lobby }, .flag (lobby.isSignedIn c))
  | .isSignedIn player =>
    let (h, c) := h.resolve player
    (h, .flag (h.toLobby.isSignedIn c))
  | .subscribe player reader =>
    let (h, c) := h.resolve player
    let p := h.toLobby.player c
    let h := { h with hub := h.hub.subscribe p }
    (h.setReader { name := reader, player := p, position := (h.hub.feed p).position }, .nothing)
  | .receive reader limit =>
    match h.readers.find? (·.name = reader) with
    | none => (h, .noReader)
    | some r =>
      let waiting := ((h.hub.feed r.player).unread r.position).length
      let (us, r) := h.readUpTo r (limit.getD waiting)
      (h.setReader r, .news us)
  | .unsubscribe reader =>
    ({ h with readers := h.readers.filter (·.name ≠ reader) },
      .flag (h.readers.any (·.name = reader)))

end Hall

instance : Matchmaker Hall where
  isSignedIn h := Matchmaker.isSignedIn h.toLobby
  signOut h c := { h with toLobby := Matchmaker.signOut h.toLobby c }
  subscribe h c := { h with toLobby := Matchmaker.subscribe h.toLobby c }
  feed h := Matchmaker.feed h.toLobby
  createMatch h c config :=
    let (lobby, creation) := Matchmaker.createMatch h.toLobby c config
    ({ h with toLobby := lobby }, creation)
  holdsTurns h := Matchmaker.holdsTurns h.toLobby
  takeTurn h c id data next :=
    let (lobby, result) := Matchmaker.takeTurn h.toLobby c id data next
    ({ h with toLobby := lobby }, result)
  cancelMatch h c id :=
    let (lobby, result) := Matchmaker.cancelMatch h.toLobby c id
    ({ h with toLobby := lobby }, result)
  dismissMatch h c id :=
    let (lobby, result) := Matchmaker.dismissMatch h.toLobby c id
    ({ h with toLobby := lobby }, result)

instance : Stage Hall Hall.Command Hall.Answer MatchId where
  perform := Hall.perform
  connect := Hall.resolve
  look h c id := h.toLobby.fetch c id

end TurnRendezvous
