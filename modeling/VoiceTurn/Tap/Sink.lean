import VoiceTurn.Pipeline.Cue
import VoiceTurn.Text.Lossy

/-!
# Sinks

Where records of captured texts and recognized intents go. A sink may keep the latest records, pass
them on, fail, or never come back with an answer; nobody but the tap that feeds it learns of that.
-/

namespace VoiceTurn.Tap

/-- A message that a tap has seen. -/
structure Record where
  topic : String
  cue : Cue
  payload : Bytes
  deriving DecidableEq, Repr

/-- Why a sink did not take a record. -/
inductive SinkFailure where
  | unavailable (reason : String)
  | rejected (reason : String)
  deriving DecidableEq, Repr

def SinkFailure.message : SinkFailure → String
  | unavailable reason => "Sink unavailable: " ++ reason
  | rejected reason => "Sink rejected record: " ++ reason

/-- The latest records, oldest first. -/
structure Shelf where
  capacity : Nat
  records : List Record := []

namespace Shelf

/-- A shelf for `capacity` records, and for at least one. -/
def withCapacity (capacity : Nat) : Shelf := { capacity := max capacity 1 }

/-- Adds a record; the oldest one gives way when there are `capacity` records. -/
def add (s : Shelf) (r : Record) : Shelf :=
  let kept := if s.records.length = s.capacity then s.records.drop 1 else s.records
  { s with records := kept ++ [r] }

def name : String := "memory"

end Shelf

/-- A destination of records. -/
inductive Sink where
  | shelf (s : Shelf)
  | log
  | refusing (reason : String)
  /-- A sink of any other kind. Its `answer` to a record may hang on all that it has been given
  before, oldest first; without an answer it never comes back. -/
  | other (answer : List Record → Record → Option (Except SinkFailure Unit))
      (given : List Record)

namespace Sink

/-- Gives a record to the sink, which answers unless it never comes back. -/
def record (s : Sink) (r : Record) : Option (Except SinkFailure Unit) × Sink :=
  match s with
  | .shelf kept => (some (.ok ()), .shelf (kept.add r))
  | .log => (some (.ok ()), .log)
  | .refusing reason => (some (.error (.unavailable reason)), s)
  | .other answer given => (answer given r, .other answer (given ++ [r]))

/-- The records that the sink still holds, oldest first. -/
def records : Sink → List Record
  | .shelf s => s.records
  | _ => []

end Sink

end VoiceTurn.Tap
