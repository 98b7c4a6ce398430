/-
# The background work of a rendezvous

While a rendezvous goes on, something works for it in the background: a
turn is on its way to the match service, a watch reads the feed, a peer is
probed.  Each piece of work is a `Task`, stamped with the generation it
was started in; its end (`TaskEnd`) reaches the rendezvous as a `Notice`
with the same stamp.
-/
import TurnRendezvous.Failure
import TurnRendezvous.Watch

namespace TurnRendezvous

inductive Phase
  | idle
  | waitingForTurn
  /-- A turn is being decided or handed to the service. -/
  | processingTurn
  | verifying
  /-- All turns are done, and the match is watched until it goes away. -/
  | monitoring
  | finished
deriving DecidableEq

/-- How a probe of a peer ends. -/
inductive ProbeAnswer
  | reachable | unreachable | failed
deriving DecidableEq

/-- Only a positive answer makes a peer reachable. -/
def ProbeAnswer.isReachable (a : ProbeAnswer) : Bool := a == .reachable

inductive Work
  /-- Hands a turn to the service; `issued` once the service was called. -/
  | submit (data : Bytes) (next : Option PlayerId) (issued : Bool)
  | awaitTurn (watch : TurnWatch)
  | awaitEnd (watch : EndWatch)
  /-- Probes the peer behind an invite; once it is asked, `reply` is when it
  will answer, and what. -/
  | probe (invite localId : String) (reply : Option (Instant × ProbeAnswer))
  | timer (due : Instant)
deriving DecidableEq

structure Task where
  generation : Nat
  work : Work
deriving DecidableEq

inductive TaskEnd
  | turn (result : TurnResult)
  /-- The service has accepted a turn, or refused it. -/
  | submitted (result : Except Failure Unit)
  | probed (answer : ProbeAnswer)
  | timeUp
  | ended (how : Departure)

/-- What reaches a rendezvous. -/
inductive Notice
  | done (generation : Nat) (how : TaskEnd)
  /-- The owner has lost interest. -/
  | detach

end TurnRendezvous
