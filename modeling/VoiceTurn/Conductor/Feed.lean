/-!
# Feeds

A feed passes items on to readers that come when they like. It keeps a bounded number of the latest
items; a reader that comes too late learns how many it has missed.
-/

namespace VoiceTurn.Conductor

/-- The latest items of a sequence. -/
structure Feed (α : Type) where
  capacity : Nat
  sent : Nat := 0
  /-- The latest items, newest first, at most `capacity` of them. -/
  kept : List α := []

/-- What a reader finds: the number of items that it has missed, and the others in order. -/
structure Reading (α : Type) where
  missed : Nat
  items : List α

namespace Feed

variable {α : Type}

/-- A feed that keeps at least `capacity` items: the next power of two. -/
def withCapacity (capacity : Nat) : Feed α := { capacity := (max capacity 1).nextPowerOfTwo }

def push (f : Feed α) (a : α) : Feed α :=
  { f with sent := f.sent + 1, kept := (a :: f.kept).take f.capacity }

/-- Repeated `push`. -/
def pushAll (f : Feed α) (as : List α) : Feed α := as.foldl push f

/-- What a reader finds that has read the first `position` items. -/
def readFrom (f : Feed α) (position : Nat) : Reading α :=
  let unread := f.sent - position
  ⟨unread - f.capacity, (f.kept.take unread).reverse⟩

end Feed

end VoiceTurn.Conductor
