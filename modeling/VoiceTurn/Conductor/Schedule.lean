/-!
# Schedules

Everything that happens between two moments of an outside observer. A world does one step after
another for as long as it can at one instant. It does so in rounds: what takes long gives way to
everything else, and goes on in the next round. The clock moves on only when there is nothing left
to do, to the next instant for which something has been put off. Worlds may go on forever, so the
number of steps is bounded by the caller.
-/

namespace VoiceTurn.Conductor

/-- A world with a clock. -/
class World (σ : Type) where
  /-- The next thing that is done in the present round. -/
  step? : σ → Option σ
  /-- The next round at the present instant, when something has given way in this one. -/
  nextRound? : σ → Option σ
  now : σ → Nat
  /-- The next instant for which something has been put off. -/
  timer? : σ → Option Nat
  setClock : σ → Nat → σ

namespace World

variable {σ : Type} [World σ]

/-- Repeated `step?` and `nextRound?`, until neither has anything to do. -/
def settle : (steps : Nat) → σ → σ
  | 0, s => s
  | steps + 1, s =>
    match step? s <|> nextRound? s with
    | some s => settle steps s
    | none => s

/-- Repeated `step?`, and one `nextRound?` at the end. -/
def finishRound : (steps : Nat) → σ → σ
  | 0, s => s
  | steps + 1, s =>
    match step? s with
    | some s => finishRound steps s
    | none => (nextRound? s).getD s

/-- Lets the clock run until `target` and does what comes due on the way, and at the end. -/
def advanceTo (target steps : Nat) : (rounds : Nat) → σ → σ
  | 0, s => s
  | rounds + 1, s =>
    let s := settle steps s
    match timer? s with
    | some t =>
      if now s < t ∧ t ≤ target then advanceTo target steps rounds (setClock s t)
      else settle steps (setClock s (max target (now s)))
    | none => settle steps (setClock s (max target (now s)))

/-- The `advanceTo` that takes `duration`. -/
def advance (duration steps : Nat) (s : σ) : σ := advanceTo (now s + duration) steps steps s

/-- Waits until `isDone`, which is seen at the end of a round: the clock runs only when nothing else
can be done, and not at all when there is no `timer?`. -/
def await (isDone : σ → Bool) (steps : Nat) : (rounds : Nat) → σ → σ
  | 0, s => s
  | rounds + 1, s =>
    let s := finishRound steps s
    if isDone s then s
    else if (step? s).isSome then await isDone steps rounds s
    else match timer? s with
      | some t => await isDone steps rounds (setClock s (max t (now s)))
      | none => s

end World

end VoiceTurn.Conductor
