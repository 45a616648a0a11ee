import VoiceTurn.Decimal.Binary

/-!
# Shortest digits

The fewest decimal digits that read back as a given double. Grids of one, two, … seventeen digits
are tried in turn; on each, the two grid points next to the number are compared with the ends of
the interval of reals that round to it. The first grid with a point inside wins, of two such points
the nearer one, and a tie goes as the caller says.
-/

namespace VoiceTurn.Decimal

/-- The number `coefficient * 10 ^ exponent`. -/
structure Digits where
  coefficient : Nat
  exponent : Int
  deriving DecidableEq, Repr

/-- Which of two equally near decimals is taken. -/
inductive Tie where
  | even
  | up
  deriving DecidableEq, Repr

namespace Digits

/-- The same number with its trailing zeros moved into the `exponent`. -/
def strip (d : Digits) : Digits :=
  if h : d.coefficient ≠ 0 ∧ d.coefficient % 10 = 0 then
    strip ⟨d.coefficient / 10, d.exponent + 1⟩
  else d
termination_by d.coefficient
decreasing_by omega

/-- The factors `10 ^ exponent` for the grid and `10 ^ -exponent` for the number, one of which is
1. -/
def scales (exponent : Int) : Nat × Nat := (.pow 10 exponent.toNat, .pow 10 (-exponent).toNat)

/-- Whether the decimal rounds to the binary number; `lowest` and `highest` belong to the interval
exactly when the mantissa is even. -/
def roundsTo (d : Digits) (b : Binary) : Bool :=
  let (grid, number) := scales d.exponent
  let point := d.coefficient * grid * b.denominator
  let low := b.lowest * number
  let high := b.highest * number
  if b.mantissa % 2 = 0 then low ≤ point && point ≤ high else low < point && point < high

end Digits

namespace Binary

/-- The least `k` with the number below `10 ^ k`. -/
def magnitude (b : Binary) : Int :=
  if b.denominator ≤ b.numerator then
    ((Nat.toDigits 10 (b.numerator / b.denominator)).length : Int)
  else
    1 - ((Nat.toDigits 10 ((b.denominator - 1) / b.numerator)).length : Int)

/-- The greatest point of the decimal grid of `10 ^ exponent` that is not above the number. -/
def floorAt (b : Binary) (exponent : Int) : Nat :=
  let (grid, number) := Digits.scales exponent
  b.numerator * number / (b.denominator * grid)

/-- Whether of the grid points around the number, `lower` and the next one, the upper is to be
taken. -/
def prefersUpper (b : Binary) (tie : Tie) (lower : Digits) : Bool :=
  let (grid, number) := Digits.scales lower.exponent
  let twice := 2 * b.numerator * number
  let middle := (2 * lower.coefficient + 1) * grid * b.denominator
  match tie with
  | .up => middle ≤ twice
  | .even => middle < twice || (middle = twice && lower.coefficient % 2 = 1)

/-- The decimal with `count` digits that reads back as the number, if there is one. -/
def onGrid? (b : Binary) (tie : Tie) (count : Nat) : Option Digits :=
  let exponent := b.magnitude - count
  let lower : Digits := ⟨b.floorAt exponent, exponent⟩
  let upper : Digits := ⟨lower.coefficient + 1, exponent⟩
  match lower.roundsTo b, upper.roundsTo b with
  | true, true => some (if b.prefersUpper tie lower then upper else lower)
  | true, false => some lower
  | false, true => some upper
  | false, false => none

/-- The shortest decimal that reads back as the number: the first that `onGrid?` has as the count
grows. -/
def shortest (b : Binary) (tie : Tie) : Digits :=
  match (List.range' 1 17).findSome? (b.onGrid? tie) with
  | some d => d.strip
  | none => ⟨b.mantissa, b.exponent⟩

end Binary

end VoiceTurn.Decimal
