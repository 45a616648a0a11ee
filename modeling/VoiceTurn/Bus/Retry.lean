import VoiceTurn.Bus.Failure

/-!
# Retrying

A message that was refused for a passing reason is tried again, a bounded number of times, after
pauses that double up to a cap.
-/

namespace VoiceTurn.Bus

/-- The longest duration in whole milliseconds that fits a clock of 64-bit seconds. -/
def longestDuration : Nat := (UInt64.size - 1) * 1000 + 999

/-- A multiple of a duration, no longer than `longestDuration`. -/
def multiplyDuration (d k : Nat) : Nat := min (d * k) longestDuration

/-- How often and after which pauses a message is tried again. -/
structure Retry where
  attempts : Nat
  initial : Nat
  cap : Nat
  deriving DecidableEq, Repr

namespace Retry

/-- The number of doublings after which the pause stays as it is. -/
def maxDoublings : Nat := 31

def never : Retry := ⟨1, 0, 0⟩

def ofAttempts (attempts initial cap : Nat) : Retry := ⟨max attempts 1, initial, cap⟩

/-- The pause before a retry, doubled from one to the next and cut at `cap`; retries are counted
from one. -/
def pause (r : Retry) (retry : Nat) : Nat :=
  min (multiplyDuration r.initial (.pow 2 (min (retry - 1) maxDoublings))) r.cap

/-- The `pause` that is made after a failed attempt, or nothing when the failure stands. -/
def pauseAfter? (r : Retry) (attempt : Nat) (f : Failure) : Option Nat :=
  if f.isPassing && attempt < r.attempts then some (r.pause attempt) else none

theorem pauseAfter?_eq_some_iff {r : Retry} {attempt : Nat} {f : Failure} {pause : Nat} :
    r.pauseAfter? attempt f = some pause ↔
      f.isPassing = true ∧ attempt < r.attempts ∧ r.pause attempt = pause := by
  simp [pauseAfter?, and_assoc]

theorem pauseAfter?_eq_none {r : Retry} {attempt : Nat} {f : Failure}
    (hf : f.isPassing = false) : r.pauseAfter? attempt f = none := by
  simp [pauseAfter?, hf]

variable {σ α : Type}

/-- Tries an operation until it succeeds, fails for good, or `left` more attempts have been made;
`made` attempts have been made before. The result comes with the sum of the pauses. -/
def runFrom (r : Retry) (operation : σ → Except Failure α × σ) (made : Nat) :
    (left : Nat) → σ → Except Failure α × Nat × σ
  | 0, s =>
    let (result, s) := operation s
    (result, 0, s)
  | left + 1, s =>
    match operation s with
    | (.ok a, s) => (.ok a, 0, s)
    | (.error f, s) =>
      match r.pauseAfter? (made + 1) f with
      | some pause =>
        let (result, elapsed, s) := runFrom r operation (made + 1) left s
        (result, pause + elapsed, s)
      | none => (.error f, 0, s)

/-- Tries an operation as often as `attempts` allows. -/
def run (r : Retry) (operation : σ → Except Failure α × σ) (s : σ) : Except Failure α × Nat × σ :=
  runFrom r operation 0 (r.attempts - 1) s

end Retry

end VoiceTurn.Bus
