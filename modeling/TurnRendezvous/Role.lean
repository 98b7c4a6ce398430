/-
# Roles

What a player does when the turn comes.  A host publishes its invite into
an untouched match and is done.  A client passes on an empty match until
the invite is there; an auto-match client has the peer behind the invite
verified before it believes in it.

`Role.onTurn` only decides: it names the payload to leave in the match,
what to wait for next and what to report.
-/
import TurnRendezvous.Duration
import TurnRendezvous.Match.Basic
import TurnRendezvous.Payload

namespace TurnRendezvous

/-- What comes after a turn. -/
inductive Patience
  /-- Nothing: the role is done. -/
  | finished
  /-- The next turn, however long it takes. -/
  | indefinite
  /-- The next turn, for about this long. -/
  | after (wait : Duration)
deriving DecidableEq

namespace Patience

/-- The wait that a number of milliseconds stands for: negative is none at
all, zero is without end. -/
def ofMillis (ms : Int64) : Patience :=
  if ms < 0 then .finished else if ms = 0 then .indefinite else .after (.ofMillis ms.toUInt64)

def isFinished : Patience → Bool
  | .finished => true
  | _ => false

end Patience

/-- What a role wants reported. -/
inductive Signal
  | complete (invite : Option String)
  | matchInvalid
  | verifyPeer (invite : String)
deriving DecidableEq

/-- A role in a rendezvous.  A client remembers the invite that it found. -/
inductive Role
  | host (invite : String)
  | client (found : Option String)
  | autoClient (localId : String) (found : Option String)
deriving DecidableEq

structure Decision where
  role : Role
  data : Payload
  nextWait : Patience
  signal : Option Signal
deriving DecidableEq

namespace Role

def name : Role → String
  | .host _ => "host"
  | .client _ => "client"
  | .autoClient .. => "auto-match client"

/-- Whether a role leaves the match once it has succeeded, if nothing else is
configured.  A host stays to see the match go away. -/
def leavesByDefault : Role → Bool
  | .host _ => false
  | _ => true

/-- The invite that a host offers or a client has found. -/
def inviteText? : Role → Option String
  | .host invite => some invite
  | .client found => found
  | .autoClient _ found => found

/-- Gives a match up as unusable. -/
def refuse (role : Role) (data : Payload) : Decision :=
  { role, data, nextWait := .finished, signal := some .matchInvalid }

/-- A host's turn.  Data in a match that the host has not seen before is
somebody else's. -/
def hostTurn (invite : String) (m : Match) (data : Payload) (old : Option Payload) :
    Decision :=
  let role := Role.host invite
  if old.isNone && m.data.isSome then role.refuse data
  else if data.state ≠ .uninitialized then role.refuse data
  else
    let offer := Payload.withInvite invite
    if offer.state = .hasInvite then
      { role, data := offer, nextWait := .finished, signal := some (.complete none) }
    else role.refuse offer

/-- A client's turn; `remember` is the role that has found an invite, and
`report` what it wants reported then. -/
def clientTurn (role : Role) (remember : String → Role) (report : String → Signal)
    (data : Payload) (wait : Duration) : Decision :=
  match data with
  | .uninitialized => { role, data, nextWait := .after wait, signal := none }
  | .invite text _ =>
    { role := remember text, data, nextWait := .finished, signal := some (report text) }
  | .invalid => role.refuse data

/-- What a role does with its turn on `m`, whose data reads as `data`; `old`
is the payload of its previous turn and `wait` the usual wait between turns. -/
def onTurn (role : Role) (m : Match) (data : Payload) (old : Option Payload)
    (wait : Duration) : Decision :=
  match role with
  | .host invite => hostTurn invite m data old
  | .client _ =>
    clientTurn role (fun text => .client (some text)) (fun text => .complete (some text)) data wait
  | .autoClient localId _ =>
    clientTurn role (fun text => .autoClient localId (some text)) .verifyPeer data wait

/-- A turn as it comes to a role. -/
structure Occasion where
  snapshot : Match
  data : Payload
  /-- The payload of the turn before. -/
  old : Option Payload
deriving DecidableEq

/-- What a role does with a row of turns, remembering what it finds. -/
def decisions (role : Role) (wait : Duration) : List Occasion → List Decision
  | [] => []
  | o :: rest =>
    let d := role.onTurn o.snapshot o.data o.old wait
    d :: decisions d.role wait rest

end Role

end TurnRendezvous
