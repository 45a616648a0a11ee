/-!
# Binary numbers

A double taken apart into a sign and an exact binary number, so that the digits that spell it and
its nearest integer can be found in exact integer arithmetic.
-/

namespace VoiceTurn.Decimal

/-- The positive number `mantissa * 2 ^ exponent`. The gap to the next smaller double is half of the
gap to the next greater one when the number is `narrow`. -/
structure Binary where
  mantissa : Nat
  exponent : Int
  narrow : Bool
  deriving DecidableEq, Repr

/-- What a double can be. -/
inductive Double where
  | zero (negative : Bool)
  | finite (negative : Bool) (magnitude : Binary)
  | infinite (negative : Bool)
  | notANumber
  deriving DecidableEq, Repr

/-- The number of values of the 52 fraction bits. -/
def fractionSize : Nat := .pow 2 52

/-- Takes a double apart along its sign, its eleven exponent bits and its 52 fraction bits. -/
def Double.of (f : Float) : Double :=
  let bits := f.toBits.toNat
  let negative : Bool := bits ≥ .pow 2 63
  let biased : Nat := bits / fractionSize % 2048
  let fraction := bits % fractionSize
  if biased = 2047 then
    if fraction = 0 then .infinite negative else .notANumber
  else if biased = 0 then
    if fraction = 0 then .zero negative else .finite negative ⟨fraction, -1074, false⟩
  else .finite negative ⟨fraction + fractionSize, (biased : Int) - 1075, fraction = 0 && biased > 1⟩

namespace Binary

/-- The numerator and the denominator of a quarter of the unit in the last place of `mantissa`. -/
def quarter (b : Binary) : Nat × Nat :=
  (.pow 2 (b.exponent - 2).toNat, .pow 2 (2 - b.exponent).toNat)

/-- The numerator of the number over the denominator of its `quarter`. -/
def numerator (b : Binary) : Nat := 4 * b.mantissa * b.quarter.1

/-- The denominator of the number's `quarter`. -/
def denominator (b : Binary) : Nat := b.quarter.2

/-- The lower end of the numbers that round to this one, over the same `denominator`. -/
def lowest (b : Binary) : Nat := (4 * b.mantissa - if b.narrow then 1 else 2) * b.quarter.1

/-- The upper end of the numbers that round to this one, over the same `denominator`. -/
def highest (b : Binary) : Nat := (4 * b.mantissa + 2) * b.quarter.1

/-- The nearest integer, a half rounded up. -/
def nearest (b : Binary) : Nat := (2 * b.numerator + b.denominator) / (2 * b.denominator)

end Binary

end VoiceTurn.Decimal
