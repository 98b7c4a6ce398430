/-
# Scenarios of jobs

Named jobs that deliver to a log.  Nothing moves by itself: work that can
be done is done when the bench settles or its clock moves.
-/
import TurnRendezvous.Duration
import TurnRendezvous.Job.Registry

namespace TurnRendezvous.Bench

/-- What a named job works on; `α` is what it may deliver. -/
inductive Work (α : Type)
  | ready (value : α)
  | delay (due : Instant)
  | manual (told : Bool)
  /-- Done from the start; its delivery cancels the job itself. -/
  | selfCancel

structure Entry (α : Type) where
  name : String
  work : Work α

inductive Delivery (α : Type)
  | plain (name : String)
  | value (name : String) (a : α)
  /-- Whether the job was cancelled when its delivery ended. -/
  | cancelled (name : String) (b : Bool)

def Delivery.name {α : Type} : Delivery α → String
  | .plain name => name
  | .value name _ => name
  | .cancelled name _ => name

inductive Step (α : Type)
  | ready (name : String) (value : α)
  | delay (name : String) (wait : Duration)
  | manual (name : String)
  | selfCancel (name : String)
  | complete (name : String)
  | cancel (name : String)
  | abandon (name : String)
  /-- Forgets the handle of a job, which goes on. -/
  | drop (name : String)
  | push (name : String)
  | cancelAll
  | settle
  | advance (wait : Duration)

/-- How a job with a handle stands. -/
structure Standing where
  name : String
  cancelled : Bool
  finished : Bool
deriving DecidableEq

/-- What a step answers: what is new, and how the jobs stand. -/
structure Answer (α : Type) where
  delivered : List (Delivery α)
  /-- The manual jobs whose work ended. -/
  ran : List String
  jobs : List Standing
  setSize : Nat

end Bench

open Bench in
/-- Named jobs and one set of them. -/
structure Bench (α : Type) where
  now : Instant := 0
  registry : Registry (Entry α) := {}
  names : List (String × JobId) := []
  set : JobSet := {}
  delivered : List (Delivery α) := []
  ran : List String := []

namespace Bench

variable {α : Type}

def spawn (b : Bench α) (name : String) (work : Work α) : Bench α :=
  let (i, registry) := b.registry.spawn { name := name, work }
  { b with registry, names := (name, i) :: b.names.filter (·.1 ≠ name) }

def withId (b : Bench α) (name : String) (f : JobId → Bench α) : Bench α :=
  match b.names.lookup name with
  | some i => f i
  | none => b

/-- Whether an entry waits for a word under a name. -/
def isManual (name : String) (e : Entry α) : Bool :=
  match e.work with
  | .manual _ => e.name == name
  | _ => false

/-- The last manual job of a name.  A word reaches it without a handle. -/
def manual? (b : Bench α) (name : String) : Option JobId :=
  ((List.range b.registry.jobs.length).filter fun i =>
    (b.registry.get? i).any fun j => isManual name j.work).getLast?

def tell (e : Entry α) : Entry α :=
  match e.work with
  | .manual _ => { e with work := .manual true }
  | _ => e

/-- Whether a piece of work can be done now. -/
def isDue (now : Instant) : Work α → Bool
  | .ready _ => true
  | .delay due => decide (due ≤ now)
  | .manual told => told
  | .selfCancel => true

/-- The work of one job is done. -/
def finish (b : Bench α) (i : JobId) (j : Job (Entry α)) : Bench α :=
  let entry := j.work
  let (delivering, started) := j.beginDelivery
  let inside :=
    match entry.work with
    | .selfCancel => if delivering then started.cancel else started
    | _ => started
  let delivery : Delivery α :=
    match entry.work with
    | .ready a => .value entry.name a
    | .selfCancel => .cancelled entry.name inside.isCancelled
    | _ => .plain entry.name
  let ran :=
    match entry.work with
    | .manual _ => [entry.name]
    | _ => []
  { b with
    registry := b.registry.modify i fun _ => inside.endDelivery
    delivered := b.delivered ++ if delivering then [delivery] else []
    ran := b.ran ++ ran }

/-- Lets one job finish, if it can. -/
def tryFinish (b : Bench α) (i : JobId) : Bench α :=
  match b.registry.get? i with
  | some j => if j.isWorking && isDue b.now j.work.work then b.finish i j else b
  | none => b

/-- Lets everything finish that can; no job waits for another one. -/
def settle (b : Bench α) : Bench α :=
  (List.range b.registry.jobs.length).foldl tryFinish b

def perform (b : Bench α) : Step α → Bench α
  | .ready name value => b.spawn name (.ready value)
  | .delay name wait => b.spawn name (.delay (b.now + wait.nanos))
  | .manual name => b.spawn name (.manual false)
  | .selfCancel name => b.spawn name .selfCancel
  | .complete name =>
    match b.manual? name with
    | some i => { b with registry := b.registry.modify i (·.progress tell) }
    | none => b
  | .cancel name => b.withId name fun i => { b with registry := b.registry.cancel i }
  | .abandon name => b.withId name fun i => { b with registry := b.registry.abandon i }
  | .drop name => { b with names := b.names.filter (·.1 ≠ name) }
  | .push name => b.withId name fun i => { b with set := b.set.push b.registry i }
  | .cancelAll =>
    let (set, registry) := b.set.cancelAll b.registry
    { b with set, registry }
  | .settle => b.settle
  | .advance wait => settle { b.settle with now := b.now + wait.nanos }

/-- The answer after a step, and the bench that has given it. -/
def report (b : Bench α) : Bench α × Answer α :=
  let jobs := b.names.filterMap fun (name, i) =>
    (b.registry.get? i).map fun j =>
      { name, cancelled := j.isCancelled, finished := j.isFinished }
  ({ b with delivered := [], ran := [] },
    { delivered := b.delivered.mergeSort fun x y => decide (x.name ≤ y.name)
      ran := b.ran.mergeSort fun x y => decide (x ≤ y)
      jobs
      setSize := b.set.ids.length })

def play (b : Bench α) : List (Step α) → List (Answer α)
  | [] => []
  | t :: rest =>
    let (b, answer) := (b.perform t).report
    answer :: play b rest

end Bench

end TurnRendezvous
