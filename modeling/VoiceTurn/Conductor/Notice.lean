import VoiceTurn.Bus.Failure
import VoiceTurn.Turn.Machine

/-!
# Notices and counters

What a conductor tells about its work: a stream of notices, and counters that only grow.
-/

namespace VoiceTurn.Conductor

/-- Something that has happened. Turns are given by their numbers. -/
inductive Notice where
  | sessionStarted (turn : Nat)
  | phaseChanged (before after : Phase)
  | commandIssued (command : Command) (topic : String)
  | eventDiscarded (cue : Cue) (phase : Phase) (reason : Discard)
  | sessionStalled (turn : Nat) (phase : Phase) (idleFor : Nat)
  | sessionInterrupted (turn : Nat) (phase : Phase)
  | turnCompleted (turn : Nat)
  | publishFailed (topic : String) (failure : Bus.Failure)
  deriving DecidableEq, Repr

/-- How often things have happened. -/
structure Tally where
  started : Nat := 0
  completed : Nat := 0
  accepted : Nat := 0
  discarded : Nat := 0
  stalls : Nat := 0
  interrupts : Nat := 0
  publishFailures : Nat := 0
  deriving DecidableEq, Repr

/-- The phase and the turn that others are shown. -/
structure Shown where
  phase : Phase := .idle
  turn : Option Nat := none
  deriving DecidableEq, Repr

end VoiceTurn.Conductor
