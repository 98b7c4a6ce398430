/-
# The hub as a match service

A lobby is a hub with the handles through which players use it.  A handle
belongs to a player and has an account, which says whether the player is
signed in; handles that share an account sign in and out together.
Whoever is signed out is refused everything but subscribing.
-/
import TurnRendezvous.Hub
import TurnRendezvous.Matchmaker.Basic

namespace TurnRendezvous

structure Handle where
  player : PlayerId
  account : Nat
deriving DecidableEq

/-- A hub and its handles. -/
structure Lobby where
  hub : Hub := {}
  /-- All handles ever made; a caller is a place in this row. -/
  handles : List Handle := []
  /-- Which accounts are signed in. -/
  accounts : List Bool := []
  /-- The handle that a name stands for now. -/
  names : List (String × Caller) := []

namespace Lobby

def handle (l : Lobby) (c : Caller) : Handle := l.handles[c]?.getD ⟨⟨""⟩, 0⟩

def player (l : Lobby) (c : Caller) : PlayerId := (l.handle c).player

def isSignedIn (l : Lobby) (c : Caller) : Bool := l.accounts[(l.handle c).account]?.getD true

/-- Signs a caller's player in or out. -/
def setSignedIn (l : Lobby) (c : Caller) (value : Bool) : Lobby :=
  { l with accounts := l.accounts.set (l.handle c).account value }

/-- Adds a handle under a name. -/
def addHandle (l : Lobby) (name : String) (h : Handle) : Lobby × Caller :=
  let c := l.handles.length
  ({ l with
      handles := l.handles ++ [h]
      names := (name, c) :: l.names.filter (·.1 ≠ name) }, c)

/-- Makes a handle with an account of its own. -/
def connect (l : Lobby) (name : String) (player : PlayerId) : Lobby × Caller :=
  { l with accounts := l.accounts ++ [true] }.addHandle name ⟨player, l.accounts.length⟩

/-- The handle of a name; one that was not seen before is made for the player
of that name. -/
def resolve (l : Lobby) (name : String) : Lobby × Caller :=
  match l.names.lookup name with
  | some c => (l, c)
  | none => l.connect name ⟨name⟩

/-- Makes a handle that shares the account of another one. -/
def cloneHandle (l : Lobby) (name : String) (source : String) : Lobby × Caller :=
  let (l, c) := l.resolve source
  l.addHandle name (l.handle c)

/-- Lets a signed-in player act on the hub. -/
def act {α : Type} (l : Lobby) (c : Caller)
    (f : Hub → PlayerId → Hub × Except Failure α) :
    Lobby × Except Failure α :=
  if l.isSignedIn c then
    let (hub, answer) := f l.hub (l.player c)
    ({ l with hub }, answer)
  else (l, .error .notSignedIn)

def create (l : Lobby) (c : Caller) (config : MatchRequest) :
    Lobby × Except Failure Match :=
  l.act c fun h p => h.create p config

def takeTurn (l : Lobby) (c : Caller) (id : MatchId) (data : Bytes) (next : Option PlayerId) :
    Lobby × Except Failure Match :=
  l.act c fun h p => h.takeTurn p id data next

def cancel (l : Lobby) (c : Caller) (id : MatchId) : Lobby × Except Failure Unit :=
  l.act c fun h p => h.cancel p id

def dismiss (l : Lobby) (c : Caller) (id : MatchId) : Lobby × Except Failure Unit :=
  l.act c fun h p => h.dismiss p id

def fetch (l : Lobby) (c : Caller) (id : MatchId) : Except Failure Match :=
  if l.isSignedIn c then
    match l.hub.snapshot? id (l.player c) with
    | some m => .ok m
    | none => .error (Hub.noMatch id)
  else .error .notSignedIn

end Lobby

/-- Forgets the answer of a call and keeps whether it was refused. -/
def refusalOnly {α : Type} : Except Failure α → Except Failure Unit
  | .ok _ => .ok ()
  | .error e => .error e

instance : Matchmaker Lobby where
  isSignedIn := Lobby.isSignedIn
  signOut l c := l.setSignedIn c false
  subscribe l c := { l with hub := l.hub.subscribe (l.player c) }
  feed l c := l.hub.feed (l.player c)
  createMatch l c config :=
    let (l, result) := l.create c config
    (l, { result })
  holdsTurns _ := false
  takeTurn l c id data next :=
    let (l, result) := l.takeTurn c id data next
    (l, refusalOnly result)
  cancelMatch := Lobby.cancel
  dismissMatch := Lobby.dismiss

end TurnRendezvous
