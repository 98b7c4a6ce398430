/-
# Timing

How long an agent waits for what (`Timing`), and how often a session tries
(`SearchConfig`).  Written as JSON a duration is its whole milliseconds,
at most `2 ^ 64 - 1` of them; every field may be left out.
-/
import TurnRendezvous.Duration
import TurnRendezvous.Json.Record

namespace TurnRendezvous

open Json (Value Record)

structure Timing where
  /-- How long the first turn may take; an empty wait has no end. -/
  firstTurnWait : Duration := .ofMillis 60000
  defaultTurnWait : Duration := .ofMillis 10000
  /-- How far a later wait is shifted at random. -/
  jitterMax : Duration := .ofMillis 2000
  probeTimeout : Duration := .ofMillis 10000
  /-- Whether a successful match is dismissed; `none` leaves it to the role. -/
  dismissOnFinish : Option Bool := none
deriving DecidableEq

structure SearchConfig where
  agent : Timing := {}
  /-- How many rooms may be tried; `none` for any number. -/
  maxAttempts : Option UInt32 := some 5
deriving DecidableEq

inductive Knob
  | firstTurnWait (d : Duration)
  | defaultTurnWait (d : Duration)
  | jitterMax (d : Duration)
  | probeTimeout (d : Duration)
  | dismissOnFinish (b : Bool)
deriving DecidableEq

namespace Timing

def adjust (c : Timing) : Knob → Timing
  | .firstTurnWait d => { c with firstTurnWait := d }
  | .defaultTurnWait d => { c with defaultTurnWait := d }
  | .jitterMax d => { c with jitterMax := d }
  | .probeTimeout d => { c with probeTimeout := d }
  | .dismissOnFinish b => { c with dismissOnFinish := some b }

end Timing

namespace Duration

/-- The whole milliseconds that fit 64 bits. -/
def cappedMillis (d : Duration) : Nat := min d.millis (UInt64.size - 1)

def toJson (d : Duration) : Value := .nat d.cappedMillis

def ofJson? (v : Value) : Option Duration :=
  (v.natBelow? UInt64.size).map fun ms => .ofMillis (UInt64.ofNat ms)

end Duration

namespace Timing

/-- The written names of the fields, in declaration order. -/
def fieldNames : List String :=
  ["first_turn_wait_ms", "default_turn_wait_ms", "jitter_max_ms", "p2p_test_timeout_ms",
    "dismiss_on_finish"]

def toJson (c : Timing) : Value :=
  .ofMembers
    [("first_turn_wait_ms", c.firstTurnWait.toJson),
      ("default_turn_wait_ms", c.defaultTurnWait.toJson),
      ("jitter_max_ms", c.jitterMax.toJson),
      ("p2p_test_timeout_ms", c.probeTimeout.toJson),
      ("dismiss_on_finish", .option .bool c.dismissOnFinish)]

def ofJson? (v : Value) : Option Timing := do
  let r ← Record.ofValue? fieldNames v
  let standard : Timing := {}
  let firstTurnWait ← r.orDefault? "first_turn_wait_ms" Duration.ofJson? standard.firstTurnWait
  let defaultTurnWait ←
    r.orDefault? "default_turn_wait_ms" Duration.ofJson? standard.defaultTurnWait
  let jitterMax ← r.orDefault? "jitter_max_ms" Duration.ofJson? standard.jitterMax
  let probeTimeout ← r.orDefault? "p2p_test_timeout_ms" Duration.ofJson? standard.probeTimeout
  let dismissOnFinish ←
    r.orDefault? "dismiss_on_finish" (Value.option? Value.bool?) standard.dismissOnFinish
  return { firstTurnWait, defaultTurnWait, jitterMax, probeTimeout, dismissOnFinish }

end Timing

namespace SearchConfig

/-- The written names of the fields, in declaration order. -/
def fieldNames : List String := ["handler", "max_attempts"]

def toJson (c : SearchConfig) : Value :=
  .ofMembers
    [("handler", c.agent.toJson),
      ("max_attempts", .option (fun n : UInt32 => .nat n.toNat) c.maxAttempts)]

def ofJson? (v : Value) : Option SearchConfig := do
  let r ← Record.ofValue? fieldNames v
  let standard : SearchConfig := {}
  let agent ← r.orDefault? "handler" Timing.ofJson? standard.agent
  let maxAttempts ←
    r.orDefault? "max_attempts"
      (Value.option? fun v => (v.natBelow? UInt32.size).map UInt32.ofNat) standard.maxAttempts
  return { agent, maxAttempts }

end SearchConfig

end TurnRendezvous
