/-
# Feeds

A feed passes items to any number of readers.  A reader is a position in
the row of all items ever sent; it starts at the end of that row
(`Feed.position`), so it sees only what is sent afterwards.  The feed keeps
the last `capacity` items: a reader further behind goes on with the oldest
one that is kept.  Once a feed is closed nothing more is sent, and its
readers get what is left and then the end.
-/

namespace TurnRendezvous

structure Feed (α : Type) where
  capacity : Nat
  /-- All items ever sent, oldest first. -/
  sent : List α := []
  closed : Bool := false

namespace Feed

variable {α : Type}

/-- A feed that keeps `capacity` items, or the next power of two of them. -/
def withCapacity (capacity : Nat) : Feed α := { capacity := capacity.nextPowerOfTwo }

/-- Where a new reader stands. -/
def position (f : Feed α) : Nat := f.sent.length

def send (f : Feed α) (a : α) : Feed α :=
  if f.closed then f else { f with sent := f.sent ++ [a] }

def close (f : Feed α) : Feed α := { f with closed := true }

/-- The position from which a reader at `position` really reads on. -/
def resume (f : Feed α) (position : Nat) : Nat :=
  max position (f.sent.length - f.capacity)

/-- What a reader at `position` has not read and can still read. -/
def unread (f : Feed α) (position : Nat) : List α := f.sent.drop (f.resume position)

/-- What reading one item yields. -/
inductive Reading (α : Type)
  | item (a : α)
  /-- Nothing yet. -/
  | pending
  /-- Nothing, ever. -/
  | ended

/-- Reads one item at `position`; answers the reader's position afterwards, too. -/
def read (f : Feed α) (position : Nat) : Reading α × Nat :=
  match f.unread position with
  | a :: _ => (.item a, f.resume position + 1)
  | [] => (if f.closed then .ended else .pending, position)

/-! ## What sending does -/

@[simp] theorem closed_send (f : Feed α) (a : α) : (f.send a).closed = f.closed := by
  unfold send
  split <;> rfl

@[simp] theorem capacity_send (f : Feed α) (a : α) : (f.send a).capacity = f.capacity := by
  unfold send
  split <;> rfl

theorem sent_send {f : Feed α} (h : f.closed = false) (a : α) :
    (f.send a).sent = f.sent ++ [a] := by
  simp [send, h]

theorem send_of_closed {f : Feed α} (h : f.closed = true) (a : α) : f.send a = f := by
  simp [send, h]

@[simp] theorem unread_position (f : Feed α) : f.unread f.position = [] := by
  simp [unread, resume, position]

end Feed

end TurnRendezvous
