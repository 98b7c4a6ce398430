/-
# Registries and sets of jobs

A registry holds all jobs that were ever started, in order; the number of
a job is its place.  A set holds some of these numbers, so that their jobs
are cancelled together.  A set forgets finished jobs, but only when
another one joins it.
-/
import TurnRendezvous.Job.Basic

namespace TurnRendezvous

/-- The place of a job in its registry. -/
abbrev JobId := Nat

/-- All jobs ever started, in order. -/
structure Registry (ω : Type) where
  jobs : List (Job ω) := []

namespace Registry

variable {ω : Type}

def get? (r : Registry ω) (i : JobId) : Option (Job ω) := r.jobs[i]?

def spawn (r : Registry ω) (work : ω) : JobId × Registry ω :=
  (r.jobs.length, { jobs := r.jobs ++ [{ work := work }] })

def modify (r : Registry ω) (i : JobId) (f : Job ω → Job ω) : Registry ω :=
  { jobs := r.jobs.modify i f }

def cancel (r : Registry ω) (i : JobId) : Registry ω := r.modify i .cancel

def abandon (r : Registry ω) (i : JobId) : Registry ω := r.modify i .abandon

def isFinished (r : Registry ω) (i : JobId) : Bool := (r.get? i).any Job.isFinished

/-- The work of a job is done; answers whether its result got through. -/
def complete (r : Registry ω) (i : JobId) : Bool × Registry ω :=
  ((r.get? i).any fun j => j.complete.1, r.modify i fun j => j.complete.2)

end Registry

/-- Jobs that are cancelled together. -/
structure JobSet where
  ids : List JobId := []
deriving DecidableEq

namespace JobSet

variable {ω : Type}

/-- Adds a job and forgets the finished ones. -/
def push (s : JobSet) (r : Registry ω) (i : JobId) : JobSet :=
  { ids := s.ids.filter (fun j => !r.isFinished j) ++ [i] }

/-- Cancels all jobs of a set and empties it. -/
def cancelAll (s : JobSet) (r : Registry ω) : JobSet × Registry ω :=
  ({}, s.ids.foldl Registry.cancel r)

end JobSet

end TurnRendezvous
