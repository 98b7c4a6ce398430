/-
# Agents and sessions over one match service

A `World` holds a match service, the agents that play over it with all
their background work, the sessions, and a clock.  This module holds the
state and the calls from outside; what goes on by itself is in
`World.Step`, and in which order it goes on in `World.Schedule`.

Every call that reaches the service or a peer is noted in the log, with
the handle that it went through.
-/
import TurnRendezvous.Agent.Basic
import TurnRendezvous.Matchmaker.Basic
import TurnRendezvous.Session

namespace TurnRendezvous

/-- What a probe will answer, and how long that takes. -/
structure ProbeReply where
  answer : ProbeAnswer
  delay : Duration := .zero
deriving DecidableEq

/-- What the probes of a player will answer. -/
structure ProbeScript where
  usual : ProbeReply
  /-- The invites that are answered otherwise. -/
  special : List (String × ProbeReply) := []
deriving DecidableEq

def ProbeScript.reply (p : ProbeScript) (invite : String) : ProbeReply :=
  (p.special.lookup invite).getD p.usual

/-- A call that leaves a mark. -/
inductive Call
  | createMatch (request : MatchRequest)
  | takeTurn (id : MatchId) (data : Bytes) (next : Option PlayerId)
  | turnLanded (id : MatchId)
  | turnFailed (id : MatchId)
  | cancelMatch (id : MatchId)
  | dismissMatch (id : MatchId)
  | probe (invite localId : String)
  | probeDone (invite localId : String)
deriving DecidableEq

/-- A call and the handle that it went through. -/
structure LogEntry where
  caller : Caller
  call : Call
deriving DecidableEq

/-- An agent and its owner's side. -/
structure Member where
  caller : Caller
  probes : ProbeScript
  agent : Agent
  /-- What has reached the owner, oldest first. -/
  delivered : List Report := []
  /-- How much of it the owner has looked at. -/
  taken : Nat := 0

/-- A session and what runs it. -/
structure Quest where
  caller : Caller
  probes : ProbeScript
  timing : Timing
  session : Session
  /-- The answer to the request for a room, and when it comes. -/
  answer : Option (Instant × Creation) := none
  /-- The agent that plays the current room, or the last one. -/
  member : Option Nat := none

/-- A match service and all that goes on over it. -/
structure World (σ : Type) where
  now : Instant := 0
  service : σ
  members : List Member := []
  quests : List Quest := []
  /-- Dismissals that were started and not carried out yet. -/
  dismissals : List (Caller × MatchId) := []
  /-- How often anybody subscribed to news. -/
  subscriptions : Nat := 0
  log : List LogEntry := []

namespace World

variable {σ : Type} [Matchmaker σ]

/-! ## Small changes -/

def note (w : World σ) (caller : Caller) (call : Call) : World σ :=
  { w with log := w.log ++ [{ caller := caller, call }] }

def modifyMember (w : World σ) (i : Nat) (f : Member → Member) : World σ :=
  { w with members := w.members.modify i f }

def modifyAgent (w : World σ) (i : Nat) (f : Agent → Agent) : World σ :=
  w.modifyMember i fun m => { m with agent := f m.agent }

def modifyQuest (w : World σ) (k : Nat) (f : Quest → Quest) : World σ :=
  { w with quests := w.quests.modify k f }

def tellSession (w : World σ) (k : Nat) (input : SessionInput) : World σ :=
  w.modifyQuest k fun q => { q with session := q.session.advance input }

/-- A caller becomes a reader of news. -/
def subscribe (w : World σ) (c : Caller) : World σ :=
  { w with
    service := Matchmaker.subscribe w.service c
    subscriptions := w.subscriptions + 1 }

/-! ## Calls of the service -/

/-- Hands a turn over. -/
def callTurn (w : World σ) (c : Caller) (id : MatchId) (data : Bytes)
    (next : Option PlayerId) : World σ × Except Failure Unit :=
  let (service, answer) := Matchmaker.takeTurn w.service c id data next
  let mark :=
    match answer with
    | .ok _ => Call.turnLanded id
    | .error _ => Call.turnFailed id
  ({ w with service }.note c mark, answer)

/-- Cancels a match; the answer interests nobody. -/
def callCancel (w : World σ) (c : Caller) (id : MatchId) : World σ :=
  { w with service := (Matchmaker.cancelMatch w.service c id).1 }.note c (.cancelMatch id)

/-- Dismisses a match; the answer interests nobody. -/
def callDismiss (w : World σ) (c : Caller) (id : MatchId) : World σ :=
  { w with service := (Matchmaker.dismissMatch w.service c id).1 }.note c (.dismissMatch id)

/-! ## Calls from outside -/

def addMember (w : World σ) (m : Member) : Nat × World σ :=
  (w.members.length, { w with members := w.members ++ [m] })

def addQuest (w : World σ) (q : Quest) : Nat × World σ :=
  (w.quests.length, { w with quests := w.quests ++ [q] })

/-- Starts a member's agent; answers whether it was started. -/
def start (w : World σ) (i : Nat) (room : Match) : Bool × World σ :=
  match w.members[i]? with
  | none => (false, w)
  | some m =>
    let signedIn := Matchmaker.isSignedIn w.service m.caller
    let position := (Matchmaker.feed w.service m.caller).position
    match m.agent.start? signedIn room position with
    | none => (false, w)
    | some agent => (true, (w.subscribe m.caller).modifyAgent i fun _ => agent)

def detach (w : World σ) (i : Nat) : World σ := w.modifyAgent i .detach

/-- Detaches a member's agent and gives its match up. -/
def stop (w : World σ) (i : Nat) : World σ :=
  match w.members[i]? with
  | none => w
  | some m =>
    let w := w.modifyAgent i .abandonMatch
    match m.agent.matchId with
    | none => w
    | some id => (w.callCancel m.caller id).callDismiss m.caller id

/-- Drops a session that runs, and the agent that plays for it. -/
def abort (w : World σ) (k : Nat) : World σ :=
  match w.quests[k]? with
  | none => w
  | some q =>
    if q.session.isOver then w
    else
      let w :=
        match q.session.stage, q.member with
        | .playing _, some i => w.detach i
        | _, _ => w
      w.modifyQuest k fun q => { q with session := { q.session with stage := .aborted } }

end World

/-! ## Hosted rooms -/

namespace Member

/-- Whether the room that a successful host watches is gone, and how much the
owner has looked at then: the first report that is no success says so, and
an agent that has ended and has nothing more to say has lost the service. -/
def roomGone? (m : Member) : Option Report × Nat :=
  match (m.delivered.drop m.taken).dropWhile Report.isComplete with
  | r :: rest => (some r, m.delivered.length - rest.length)
  | [] =>
    let lost : Option Report :=
      if m.agent.isFinished then
        m.agent.rendezvous.map fun r => ⟨r.matchId, .fatalError .serviceClosed⟩
      else none
    (lost, m.delivered.length)

end Member

end TurnRendezvous
