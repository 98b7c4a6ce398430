/-
# Stages

What a script can say to the match service beneath it.  A `Stage` is a
service that takes commands of its own and knows the matches that a script
names.
-/
import TurnRendezvous.Matchmaker.Basic

namespace TurnRendezvous

/-- A service on a stage: it takes commands `κ` of its own, answers them by
`ρ`, and is told by `ϱ` which match is meant. -/
class Stage (σ : Type) (κ ρ ϱ : outParam Type) extends Matchmaker σ where
  perform : σ → κ → σ × ρ
  /-- The handle that stands for a player's name. -/
  connect : σ → String → σ × Caller
  /-- The snapshot that a caller gets of a match. -/
  look : σ → Caller → ϱ → Except Failure Match

end TurnRendezvous
