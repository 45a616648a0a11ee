/-!
# The inbox

The bounded queue in front of the worker. Messages from the bus are entered when there is room and
are counted as lost when there is none. A sender that can wait is put in line; whenever an item is
taken out, the first of the line is granted the place that has become free, and enters its item when
it goes on.
-/

namespace VoiceTurn.Conductor

/-- A queue of at most `capacity` items, with senders in line. -/
structure Inbox (α : Type) where
  capacity : Nat
  /-- The items in the queue, oldest first. -/
  items : List α := []
  /-- The items of senders in line, in the order of the line. -/
  waiting : List α := []
  /-- The items of senders that have been granted a place by `take?`. -/
  granted : List α := []
  isClosed : Bool := false
  /-- How many items an `offer` has lost. -/
  overflows : Nat := 0

/-- What becomes of an item whose sender can wait. -/
inductive Sending where
  | entered
  | waits
  | refused
  deriving DecidableEq, Repr

namespace Inbox

variable {α : Type}

/-- A queue for `capacity` items, and for at least one. -/
def withCapacity (capacity : Nat) : Inbox α := { capacity := max capacity 1 }

/-- Whether an item can enter at once; a place that has been `granted` is taken. -/
def hasRoom (b : Inbox α) : Bool := b.items.length + b.granted.length < b.capacity

/-- Enters an item that cannot wait, and counts it in `overflows` if there is no room. -/
def offer (b : Inbox α) (a : α) : Inbox α :=
  if b.isClosed then b
  else if b.hasRoom then { b with items := b.items ++ [a] }
  else { b with overflows := b.overflows + 1 }

/-- Enters an item whose sender is `waiting` if there is no room. -/
def send (b : Inbox α) (a : α) : Sending × Inbox α :=
  if b.isClosed then (.refused, b)
  else if b.hasRoom then (.entered, { b with items := b.items ++ [a] })
  else (.waits, { b with waiting := b.waiting ++ [a] })

/-- Takes the oldest item out and grants its place to the first sender that is `waiting`. -/
def take? (b : Inbox α) : Option (α × Inbox α) :=
  match b.items with
  | [] => none
  | a :: items =>
    match b.waiting with
    | [] => some (a, { b with items })
    | w :: waiting => some (a, { b with items, waiting, granted := b.granted ++ [w] })

/-- Lets the senders that have been `granted` a place enter their items. -/
def enterGranted (b : Inbox α) : Inbox α := { b with items := b.items ++ b.granted, granted := [] }

/-- Takes nothing any more; everyone in `waiting` and `granted` is refused. -/
def close (b : Inbox α) : Inbox α := { b with isClosed := true, waiting := [], granted := [] }

end Inbox

end VoiceTurn.Conductor
