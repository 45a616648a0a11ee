import VoiceTurn.Tap.Sink

/-!
# Taps

A tap records captured texts and recognized intents. Messages enter a queue of its own, from which
it feeds its sink; a message that finds the queue full is dropped and counted. A tap that is being
detached empties its queue first.
-/

namespace VoiceTurn

namespace Tap

/-- What a tap is doing. -/
inductive Stage where
  | running
  /-- It empties its queue and then stops. -/
  | draining
  | stopped
  /-- It waits for a sink that never comes back. -/
  | stuck
  deriving DecidableEq, Repr

/-- The cues that are recorded. -/
def cues : List Cue := [.textCaptured, .intentRecognized]

end Tap

/-- A queue of records in front of a `Sink`. -/
structure Tap where
  capacity : Nat
  sink : Tap.Sink
  queue : List Tap.Record := []
  /-- How many messages an `offer` has lost. -/
  dropped : Nat := 0
  stage : Tap.Stage := .running

namespace Tap

/-- A tap for `capacity` waiting records, and for at least one. -/
def withCapacity (capacity : Nat) (sink : Sink) : Tap := { capacity := max capacity 1, sink }

/-- Takes a message, as long as there is room and the tap has not `stopped`. -/
def offer (t : Tap) (r : Record) : Tap :=
  if t.stage = .stopped then t
  else if t.queue.length < t.capacity then { t with queue := t.queue ++ [r] }
  else { t with dropped := t.dropped + 1 }

/-- Gives the oldest record to the sink, or stops when there is nothing left to drain. What the sink
answers makes no difference, but it has to answer. -/
def step? (t : Tap) : Option Tap :=
  match t.stage, t.queue with
  | .stopped, _ | .stuck, _ => none
  | stage, r :: queue =>
    let (answer, sink) := t.sink.record r
    some { t with queue, sink, stage := if answer.isSome then stage else .stuck }
  | .draining, [] => some { t with stage := .stopped }
  | .running, [] => none

/-- Asks a tap that is `running` to empty its queue and stop. -/
def drain (t : Tap) : Tap := if t.stage = .running then { t with stage := .draining } else t

end Tap

end VoiceTurn
