/-
# Scenarios

A scenario is a world on a stage, in which agents and sessions have the
names that a script knows them by.  After each step of the script
everything settles; the steps of a batch are made together first.  An
`Answer` holds what is new since the one before.
-/
import TurnRendezvous.Scenario.Script
import TurnRendezvous.Scenario.Stage
import TurnRendezvous.World.Schedule

namespace TurnRendezvous

structure Actor (ϱ : Type) where
  name : String
  member : Nat
  reactions : Reactions ϱ := []
  /-- Whether it was started with a callback that reacts. -/
  reacting : Bool := false
  /-- Whether its owner still holds it. -/
  held : Bool := true

structure Player where
  name : String
  quest : Nat
  /-- The member that watches the room left behind, while that is held. -/
  hosted : Option Nat := none
  /-- Whether the end of the session was reported. -/
  reported : Bool := false

structure Scenario (σ ϱ : Type) where
  world : World σ
  /-- All agents ever named, oldest first. -/
  actors : List (Actor ϱ) := []
  /-- All sessions ever named, oldest first. -/
  players : List Player := []
  /-- What owners were told since the last answer. -/
  deliveries : List Delivery := []
  /-- How much of the log was in earlier answers. -/
  reportedCalls : Nat := 0

namespace Scenario

variable {σ κ ρ ϱ : Type} [Stage σ κ ρ ϱ]

/-- A scenario before its first step. -/
def ofService (service : σ) : Scenario σ ϱ := { world := { service } }

/-! ## Names -/

def actor? (s : Scenario σ ϱ) (name : String) : Option (Actor ϱ) :=
  s.actors.find? fun a => a.held && a.name = name

/-- The last session of a name. -/
def player? (s : Scenario σ ϱ) (name : String) : Option Player :=
  s.players.reverse.find? (·.name = name)

def modifyActor (s : Scenario σ ϱ) (member : Nat) (f : Actor ϱ → Actor ϱ) : Scenario σ ϱ :=
  { s with actors := s.actors.map fun a => if a.member = member then f a else a }

def onWorld (s : Scenario σ ϱ) (f : World σ → World σ) : Scenario σ ϱ :=
  { s with world := f s.world }

def dropActor (s : Scenario σ ϱ) (a : Actor ϱ) : Scenario σ ϱ :=
  (s.onWorld (·.detach a.member)).modifyActor a.member fun a => { a with held := false }

/-- The owner of an agent starts it, with a callback that reacts or not. -/
def startActor (s : Scenario σ ϱ) (a : Actor ϱ) (room : ϱ) (reacting : Bool) :
    Except Failure Bool × Scenario σ ϱ :=
  match s.world.members[a.member]? with
  | none => (.ok false, s)
  | some m =>
    match Stage.look s.world.service m.caller room with
    | .error e => (.error e, s)
    | .ok snapshot =>
      let (started, world) := s.world.start a.member snapshot
      let s := { s with world }
      (.ok started, if started then s.modifyActor a.member ({ · with reacting }) else s)

/-! ## Callbacks -/

/-- What the owner of an agent does inside the callback for a report. -/
def reaction? (a : Actor ϱ) (r : Report) : Option (Reaction ϱ) :=
  if a.reacting && a.held then a.reactions.lookup r.outcome.kind else none

/-- An owner is told something. -/
def tell (s : Scenario σ ϱ) (a : Actor ϱ) (r : Report) (started : Option (Option Bool)) :
    Scenario σ ϱ :=
  { s with deliveries := s.deliveries ++ [{ agent := a.name, report := r, started }] }

/-- A report reaches the owner of an agent, who reacts to it first. -/
def hear (s : Scenario σ ϱ) (a : Actor ϱ) (r : Report) : Scenario σ ϱ :=
  match reaction? a r with
  | none => s.tell a r none
  | some .detach => (s.onWorld (·.detach a.member)).tell a r none
  | some .drop => (s.dropActor a).tell a r none
  | some (.start other room) =>
    match s.actor? other with
    | none => s.tell a r (some none)
    | some b =>
      let (started, s) := s.startActor b room false
      s.tell a r (some (some (started.toOption.getD false)))

/-- All that reached the owner of a member after the first `known` reports. -/
def hearAll (s : Scenario σ ϱ) (member known : Nat) : Scenario σ ϱ :=
  match s.actors.find? (·.member = member), s.world.members[member]? with
  | some a, some m => (m.delivered.drop known).foldl (fun s r => s.hear a r) s
  | _, _ => s

/-! ## Running -/

/-- A bound on the sweeps of one settling, and on the steps of one session. -/
def fuel : Nat := 100000

/-- Lets one part of the world move, callbacks included. -/
def run? (s : Scenario σ ϱ) (p : Part) : Option (Scenario σ ϱ) :=
  (s.world.run? fuel [] p).map fun world =>
    match p with
    | .rendezvous i =>
      let known := (s.world.members[i]?.map fun m => m.delivered.length).getD 0
      hearAll { s with world } i known
    | _ => { s with world }

/-- How a scenario runs. -/
def machine : Machine (Scenario σ ϱ) where
  parts s := s.world.parts
  step? := run?
  due? s := s.world.due?
  setClock s now := s.onWorld ({ · with now })

def settle (s : Scenario σ ϱ) : Scenario σ ϱ := machine.settle fuel s

def advance (s : Scenario σ ϱ) (wait : Duration) : Scenario σ ϱ :=
  machine.advance fuel (s.world.now + wait.nanos) fuel s

/-! ## Steps -/

def withActor (s : Scenario σ ϱ) (name : String)
    (f : Actor ϱ → Member → Scenario σ ϱ × Reply ρ) : Scenario σ ϱ × Reply ρ :=
  match s.actor? name with
  | none => (s, .noAgent)
  | some a =>
    match s.world.members[a.member]? with
    | none => (s, .noAgent)
    | some m => f a m

def createActor (s : Scenario σ ϱ) (name player : String) (role : Role) (timing : Timing)
    (probes : ProbeScript) (reactions : Reactions ϱ) : Scenario σ ϱ :=
  let s :=
    match s.actor? name with
    | some a => s.dropActor a
    | none => s
  let (service, caller) := Stage.connect s.world.service player
  let (member, world) :=
    { s.world with service }.addMember { caller, probes, agent := .ofRole role timing }
  { s with world, actors := s.actors ++ [{ name := name, member, reactions }] }

def startSession (s : Scenario σ ϱ) (name player : String) (side : Side)
    (config : SearchConfig) (probes : ProbeScript) : Scenario σ ϱ :=
  let (service, caller) := Stage.connect s.world.service player
  let session : Session := { side, maxAttempts := config.maxAttempts }
  let (quest, world) :=
    { s.world with service }.addQuest { caller, probes, timing := config.agent, session }
  { s with world, players := s.players ++ [{ name := name, quest }] }

/-- Uses the room that a session left behind. -/
def withHosted (s : Scenario σ ϱ) (name : String)
    (f : Player → Nat → Scenario σ ϱ × Reply ρ) : Scenario σ ϱ × Reply ρ :=
  match s.player? name with
  | none => (s, .noHostedRoom)
  | some p =>
    match p.hosted with
    | none => (s, .noHostedRoom)
    | some i => f p i

/-- The room that a session left behind is let go of. -/
def releaseHosted (s : Scenario σ ϱ) (p : Player) : Scenario σ ϱ :=
  { s with
    players := s.players.map fun q => if q.quest = p.quest then { q with hosted := none } else q }

/-- Looks whether the room of a member is gone. -/
def askClosed (s : Scenario σ ϱ) (i : Nat) : Scenario σ ϱ × Reply ρ :=
  match s.world.members[i]? with
  | none => (s, .nothing)
  | some m =>
    let (r, taken) := m.roomGone?
    (s.onWorld (·.modifyMember i ({ · with taken })), .report r)

mutual

def perform (s : Scenario σ ϱ) : Step κ ϱ → Scenario σ ϱ × Reply ρ
  | .create agent player role timing probes reactions =>
    (s.createActor agent player role timing probes reactions, .nothing)
  | .start agent room =>
    match s.actor? agent with
    | none => (s, .nothing)
    | some a =>
      match s.startActor a room true with
      | (.ok started, s) => (s, .flag started)
      | (.error e, s) => (s, .refused e)
  | .detach agent => s.withActor agent fun a _ => (s.onWorld (·.detach a.member), .nothing)
  | .stop agent => s.withActor agent fun a _ => (s.onWorld (·.stop a.member), .nothing)
  | .drop agent => s.withActor agent fun a _ => (s.dropActor a, .nothing)
  | .waitPhase agent phase =>
    s.withActor agent fun _ m => (s, .phase (m.agent.reached? phase))
  | .inspect agent => s.withActor agent fun _ m => (s, .state m.agent.matchId m.agent.phase)
  | .session name player side config probes =>
    (s.startSession name player side config probes, .session config.maxAttempts side.isHost)
  | .abort session =>
    match s.player? session with
    | some p => (s.onWorld (·.abort p.quest), .nothing)
    | none => (s, .nothing)
  | .closed session => s.withHosted session fun _ i => s.askClosed i
  | .close session =>
    s.withHosted session fun p i => ((s.onWorld (·.stop i)).releaseHosted p, .nothing)
  | .dropHosted session =>
    s.withHosted session fun p i => ((s.onWorld (·.detach i)).releaseHosted p, .nothing)
  | .service command =>
    let (service, answer) := Stage.perform s.world.service command
    (s.onWorld ({ · with service }), .service answer)
  | .advance wait => (s.advance wait, .nothing)
  | .settle => (s.settle, .nothing)
  | .batch steps =>
    let (s, replies) := performAll s steps
    (s, .all replies)

def performAll (s : Scenario σ ϱ) : List (Step κ ϱ) → Scenario σ ϱ × List (Reply ρ)
  | [] => (s, [])
  | t :: rest =>
    let (s, reply) := perform s t
    let (s, replies) := performAll s rest
    (s, reply :: replies)

end

/-! ## Answers -/

/-- The result of a session that has ended and was not reported. -/
def ending? (s : Scenario σ ϱ) (p : Player) : Option (Except Failure Meeting) :=
  if p.reported then none
  else
    match s.world.sessionStage? p.quest with
    | some (.ended result) => some result
    | _ => none

/-- Marks the end of a session as reported and keeps the room it left behind. -/
def file (s : Scenario σ ϱ) (p : Player) : Player :=
  match s.ending? p with
  | none => p
  | some (.ok meeting) =>
    let member := s.world.quests[p.quest]?.bind Quest.member
    { p with reported := true, hosted := if meeting.hosted then member else none }
  | some (.error _) => { p with reported := true }

/-- The answer after a step, and the scenario that has given it. -/
def answer (s : Scenario σ ϱ) (result : Reply ρ) : Scenario σ ϱ × Answer ρ :=
  let ended := s.players.filterMap fun p => (s.ending? p).map fun r => (p.name, r)
  let phases := s.actors.filterMap fun a =>
    if a.held then s.world.members[a.member]?.map fun m => (a.name, m.agent.phase) else none
  ({ s with
      players := s.players.map s.file
      deliveries := []
      reportedCalls := s.world.log.length },
    { result
      deliveries := sortByName Delivery.agent s.deliveries
      calls := (s.world.log.drop s.reportedCalls).map LogEntry.call
      sessions := sortByName Prod.fst ended
      phases
      subscriptions := s.world.subscriptions })

def step (s : Scenario σ ϱ) (t : Step κ ϱ) : Scenario σ ϱ × Answer ρ :=
  let (s, result) := s.perform t
  s.settle.answer result

def play (s : Scenario σ ϱ) : List (Step κ ϱ) → List (Answer ρ)
  | [] => []
  | t :: rest =>
    let (s, answer) := s.step t
    answer :: play s rest

end Scenario

end TurnRendezvous
