/-
# Jitter

`spread` shifts a wait by a random whole number of nanoseconds between
`-max` and `max`, both included.  The randomness is a row of 64-bit words;
behind the last one given the row goes on with zeros, for which the draw
always ends.

The draw is by rejection: two words make a 128-bit number, its product
with the size of the range is split at bit 128, the upper half is the
result and the lower half decides whether the try counts.
-/
import TurnRendezvous.Duration

namespace TurnRendezvous.Jitter

/-- The number of bits that `n` falls short of 128. -/
def leadingZeros (n : Nat) : Nat := if n = 0 then 128 else 127 - n.log2

/-- The number of values of two words. -/
def wideSize : Nat := UInt64.size * UInt64.size

/-- The largest lower half that counts, for a range of `range` values. -/
def zone (range : Nat) : Nat := (range <<< leadingZeros range) % wideSize - 1

/-- The 128-bit number made of two words, the low one first. -/
def wide (x y : UInt64) : Nat := x.toNat + y.toNat * UInt64.size

/-- Whether a try counts. -/
def accepts (range : Nat) (x y : UInt64) : Bool :=
  decide (wide x y * range % wideSize ≤ zone range)

/-- What a try yields: a number below `range`. -/
def pick (range : Nat) (x y : UInt64) : Nat := wide x y * range / wideSize

/-- A number below `range`, and how many words it took. -/
def draw (range : Nat) : List UInt64 → Nat × Nat
  | x :: y :: rest =>
    if accepts range x y then (pick range x y, 2)
    else
      let (value, used) := draw range rest
      (value, used + 2)
  | [x] => if accepts range x 0 then (pick range x 0, 2) else (0, 4)
  | [] => (0, 2)

/-- The number of values from `-max` to `max`. -/
def rangeOf (max : Duration) : Nat := 2 * max.nanos + 1

/-- A wait after the shift that the draw `value` stands for.  A shift to
before zero is dropped. -/
def shift (base max : Duration) (value : Nat) : Duration :=
  let shifted : Int := base.nanos - max.nanos + value
  if shifted < 0 then base else .clampSeconds shifted.toNat

/-- A wait with a random shift, and how many words it took.  Without a
window nothing is drawn. -/
def spread (base max : Duration) (words : List UInt64) : Duration × Nat :=
  if max.isZero then (base, 0)
  else
    let (value, used) := draw (rangeOf max) words
    (shift base max value, used)

end TurnRendezvous.Jitter
