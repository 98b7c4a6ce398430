/-
# Running a world

A fixed order in which the parts of a world move.  To sweep is to let
every part that there is make one step, if it can; to settle is to sweep
until nothing moves; to advance is to settle, and to do so again at every
instant at which something falls due before the clock reaches its goal.

Nothing here is special to a world: a `Machine` says what the parts are,
how one moves, and what the clock does.  Settling is bounded by `fuel`
sweeps, of which any run that comes to rest needs only as many as it has
steps.
-/
import TurnRendezvous.World.Step

namespace TurnRendezvous

/-- A state with parts that move and a clock. -/
structure Machine (α : Type) where
  /-- The parts there are, in the order in which they move. -/
  parts : α → List Part
  step? : α → Part → Option α
  /-- The next instant at which something falls due. -/
  due? : α → Option Instant
  setClock : α → Instant → α

namespace Machine

variable {α : Type}

/-- Lets one part move; a part that moved, or one before it, is remembered. -/
def nudge (m : Machine α) (state : α × Bool) (p : Part) : α × Bool :=
  match m.step? state.1 p with
  | some a => (a, true)
  | none => state

/-- Lets every part move once; answers whether anything moved. -/
def sweep (m : Machine α) (a : α) : α × Bool := (m.parts a).foldl m.nudge (a, false)

/-- Sweeps until nothing moves. -/
def settle (m : Machine α) : Nat → α → α
  | 0, a => a
  | fuel + 1, a =>
    let (a, moved) := m.sweep a
    if moved then m.settle fuel a else a

/-- Moves the clock to `goal`, settling wherever something falls due. -/
def advance (m : Machine α) (fuel : Nat) (goal : Instant) : Nat → α → α
  | 0, a => m.settle fuel (m.setClock a goal)
  | n + 1, a =>
    let a := m.settle fuel a
    match m.due? a with
    | some due =>
      if due ≤ goal then m.advance fuel goal n (m.setClock a due)
      else m.settle fuel (m.setClock a goal)
    | none => m.settle fuel (m.setClock a goal)

end Machine

def Work.due? : Work → Option Instant
  | .awaitTurn watch => watch.deadline
  | .probe _ _ reply => reply.map Prod.fst
  | .timer due => some due
  | _ => none

def Quest.due? (q : Quest) : Option Instant :=
  match q.session.stage with
  | .joining => q.answer.map Prod.fst
  | _ => none

namespace Member

def jobs (m : Member) : List (Job Task) :=
  match m.agent.rendezvous with
  | some r => r.jobs.jobs
  | none => []

/-- When something of a member falls due. -/
def dues (m : Member) : List Instant :=
  m.jobs.filterMap fun j => if j.isWorking then j.work.work.due? else none

/-- The parts of the member that stands at `i`. -/
def parts (m : Member) (i : Nat) : List Part :=
  .rendezvous i :: (List.range m.jobs.length).map (.task i)

end Member

namespace World

variable {σ : Type} [Matchmaker σ]

/-- Sessions first, then agents with their tasks, then dismissals, the oldest of
which is always the first. -/
def parts (w : World σ) : List Part :=
  (List.range w.quests.length).map .session ++
    (w.members.zipIdx.flatMap fun (m, i) => m.parts i) ++ w.dismissals.map fun _ => .dismissal 0

def due? (w : World σ) : Option Instant :=
  ((w.members.flatMap Member.dues ++ w.quests.filterMap Quest.due?).filter
    (w.now < ·)).min?

/-- Steps of one session until it has to wait. -/
def runSession? (w : World σ) (k : Nat) : Nat → Option (World σ)
  | 0 => none
  | fuel + 1 => (w.stepSession? k).map fun w => (w.runSession? k fuel).getD w

/-- What a part does when it is its turn: a session goes on until it has to
wait, anything else makes a single step. -/
def run? (w : World σ) (fuel : Nat) (words : List UInt64) : Part → Option (World σ)
  | .session k => w.runSession? k fuel
  | p => w.step? words p

end World

end TurnRendezvous
