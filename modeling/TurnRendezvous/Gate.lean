/-
# Delivery gates

A gate lets results through until it is closed, and it never opens again.
A body that is delivered runs while the gate is held, so it may use the
gate itself: close it, look at it, or deliver once more.

`Gate.Action` is a program of uses of one gate, bodies included, and
`Gate.run` says what each use answers.
-/

namespace TurnRendezvous

structure Gate where
  closed : Bool := false
deriving DecidableEq

namespace Gate

def opened : Gate := {}

/-- Closes a gate; answers whether it was open. -/
def close (g : Gate) : Bool × Gate := (!g.closed, ⟨true⟩)

@[simp] theorem closed_close (g : Gate) : g.close.2.closed = true := rfl

/-- One use of a gate. -/
inductive Action
  | close
  | isClosed
  /-- Runs the body, unless the gate is closed. -/
  | deliver (body : List Action)
  /-- Closes the gate and runs the body, unless the gate was closed before. -/
  | deliverFinal (body : List Action)

/-- What a use of a gate answers. -/
inductive Answer
  | flag (b : Bool)
  /-- The body ran; these are the answers inside it. -/
  | ran (answers : List Answer)
  /-- The body did not run. -/
  | skipped

mutual

def run (g : Gate) : Action → Answer × Gate
  | .close =>
    let (won, g) := g.close
    (.flag won, g)
  | .isClosed => (.flag g.closed, g)
  | .deliver body =>
    if g.closed then (.skipped, g)
    else
      let (answers, g) := runAll g body
      (.ran answers, g)
  | .deliverFinal body =>
    if g.closed then (.skipped, g)
    else
      let (answers, g) := runAll ⟨true⟩ body
      (.ran answers, g)

/-- A program of uses, one after the other. -/
def runAll (g : Gate) : List Action → List Answer × Gate
  | [] => ([], g)
  | a :: rest =>
    let (answer, g) := run g a
    let (answers, g) := runAll g rest
    (answer :: answers, g)

end

end Gate

end TurnRendezvous
