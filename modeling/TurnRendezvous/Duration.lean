/-
# Durations

A duration is a whole number of nanoseconds whose whole seconds fit a
64-bit word.  Arithmetic on durations happens on `Duration.nanos`, in
`Nat`; only the constructors below decide what is representable.

Instants (`Instant`) are nanoseconds since the start of a run, without a
bound: a deadline is an instant plus a duration and never overflows.
-/

namespace TurnRendezvous

def nanosPerSecond : Nat := 1000000000

def nanosPerMilli : Nat := 1000000

/-- A point in time: nanoseconds since the start of a run. -/
abbrev Instant := Nat

/-- A span of time in whole nanoseconds, its whole seconds below `2 ^ 64`. -/
structure Duration where
  nanos : Nat
  isLt : nanos < UInt64.size * nanosPerSecond
deriving DecidableEq

namespace Duration

def zero : Duration := ⟨0, by decide⟩

instance : Inhabited Duration := ⟨zero⟩

@[ext] theorem ext {a b : Duration} (h : a.nanos = b.nanos) : a = b := by
  cases a; cases b; cases h; rfl

/-- Whole seconds and the nanoseconds past them. -/
def ofParts (secs : UInt64) (sub : Fin nanosPerSecond) : Duration :=
  ⟨secs.toNat * nanosPerSecond + sub.val, by
    have h := secs.toNat_lt
    have h' := sub.isLt
    unfold nanosPerSecond UInt64.size at *
    omega⟩

def ofMillis (ms : UInt64) : Duration :=
  ⟨ms.toNat * nanosPerMilli, by
    have h := ms.toNat_lt
    unfold nanosPerSecond nanosPerMilli UInt64.size
    omega⟩

def maxSeconds : Nat := UInt64.size - 1

/-- The span of `n` nanoseconds.  Seconds beyond the range become the largest
ones; the nanoseconds past the whole second are kept as they are. -/
def clampSeconds (n : Nat) : Duration :=
  ⟨min (n / nanosPerSecond) maxSeconds * nanosPerSecond + n % nanosPerSecond, by
    have h : n % nanosPerSecond < nanosPerSecond := Nat.mod_lt _ (by decide)
    have h' : min (n / nanosPerSecond) maxSeconds ≤ maxSeconds := Nat.min_le_right _ _
    unfold nanosPerSecond maxSeconds UInt64.size at *
    omega⟩

def seconds (d : Duration) : Nat := d.nanos / nanosPerSecond

/-- Nanoseconds past the whole seconds. -/
def subsecond (d : Duration) : Nat := d.nanos % nanosPerSecond

def millis (d : Duration) : Nat := d.nanos / nanosPerMilli

def isZero (d : Duration) : Bool := d.nanos == 0

/-- A span, unless it is empty: an empty wait has no end. -/
def limit? (d : Duration) : Option Duration := if d.isZero then none else some d

@[simp] theorem nanos_ofMillis (ms : UInt64) :
    (ofMillis ms).nanos = ms.toNat * nanosPerMilli := rfl

@[simp] theorem millis_ofMillis (ms : UInt64) : (ofMillis ms).millis = ms.toNat := by
  simp [millis, nanosPerMilli]

end Duration

end TurnRendezvous
