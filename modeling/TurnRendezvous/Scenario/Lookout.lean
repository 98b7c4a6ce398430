/-
# Scenarios of a single wait

One turn wait or one end watch on a feed of its own, with everything that
can happen to it: news, the end of the feed, time, and its owner's loss
of interest.
-/
import TurnRendezvous.Job.Basic
import TurnRendezvous.Watch

namespace TurnRendezvous.Lookout

/-- What is waited for. -/
inductive Target
  | turn (wait : TurnWatch)
  | ending (watch : EndWatch)
deriving DecidableEq

inductive Result
  | turn (r : TurnResult)
  | ending (r : Departure)
deriving DecidableEq

inductive Action
  | push (news : List MatchNews)
  | closeFeed
  | cancel
  | abandon
  | advance (wait : Duration)
  | settle

/-- Something that happens, and whether everything settles afterwards. -/
structure Step where
  action : Action
  settles : Bool := true

/-- How things stand after a step. -/
structure Answer where
  results : List Result
  finished : Bool
  cancelled : Bool

end Lookout

open Lookout in
structure Lookout where
  now : Instant := 0
  feed : Feed MatchNews
  job : Job Target
  /-- What was delivered since the last answer. -/
  results : List Result := []

namespace Lookout

/-- A wait for the turn on a match that starts at once. -/
def forTurn (capacity : Nat) (id : MatchId) (timeout : Option Duration) : Lookout :=
  let feed : Feed MatchNews := .withCapacity capacity
  { feed, job := { work := .turn (.arm 0 id feed.position timeout) } }

/-- A watch for the end of a match that starts at once. -/
def forEnd (capacity : Nat) (id : MatchId) : Lookout :=
  let feed : Feed MatchNews := .withCapacity capacity
  { feed, job := { work := .ending { matchId := id, position := feed.position } } }

/-- How the wait ends if it looks at its feed now. -/
def result? (w : Lookout) : Option Result :=
  match w.job.work with
  | .turn wait => (wait.result? w.feed w.now).map .turn
  | .ending watch => (watch.result? w.feed).map .ending

/-- The wait has read all there is. -/
def caughtUp (feed : Feed MatchNews) : Target → Target
  | .turn wait => .turn (wait.caughtUp feed)
  | .ending watch => .ending (watch.caughtUp feed)

/-- Lets the wait look at its feed, if it still looks. -/
def settle (w : Lookout) : Lookout :=
  if w.job.isWorking then
    match w.result? with
    | none => { w with job := w.job.progress (caughtUp w.feed) }
    | some r =>
      let (delivered, job) := w.job.complete
      { w with job, results := w.results ++ if delivered then [r] else [] }
  else w

/-- Lets something happen. -/
def act (w : Lookout) : Action → Lookout
  | .push news => { w with feed := news.foldl Feed.send w.feed }
  | .closeFeed => { w with feed := w.feed.close }
  | .cancel => { w with job := w.job.cancel }
  | .abandon => { w with job := w.job.abandon }
  | .advance wait => settle { w.settle with now := w.now + wait.nanos }
  | .settle => w.settle

def step (w : Lookout) (t : Step) : Lookout × Answer :=
  let w := w.act t.action
  let w := if t.settles then w.settle else w
  ({ w with results := [] },
    { results := w.results
      finished := w.job.isFinished
      cancelled := w.job.isCancelled })

def play (w : Lookout) : List Step → List Answer
  | [] => []
  | t :: rest =>
    let (w, answer) := w.step t
    answer :: play w rest

end Lookout

end TurnRendezvous
