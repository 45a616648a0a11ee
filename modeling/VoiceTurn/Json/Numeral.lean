import VoiceTurn.Decimal.Reading

/-!
# Numerals

A number as a document writes it, and the number that it denotes. A document may hold numerals that
no number represents, as long as nobody asks for their value.
-/

namespace VoiceTurn.Json

/-- A number as it is written: a sign, the digits before the point, the digits after it, and an
exponent with its own sign. -/
structure Numeral where
  negative : Bool
  whole : List Char
  fraction : Option (List Char)
  exponent : Option (Bool × List Char)
  deriving DecidableEq, Repr

/-- An integer within 64 bits, or a double. -/
inductive Number where
  | int (n : Int)
  | float (f : Float)

namespace Numeral

/-- Reads the digits after a point, when there is one. -/
def fraction? : List Char → Option (Option (List Char) × List Char)
  | '.' :: cs =>
    let digits := cs.takeWhile Char.isDigit
    if digits.isEmpty then none else some (some digits, cs.dropWhile Char.isDigit)
  | cs => some (none, cs)

/-- Reads an exponent, when there is one; nothing may follow it. -/
def exponent? : List Char → Option (Option (Bool × List Char))
  | [] => some none
  | e :: cs =>
    if e = 'e' ∨ e = 'E' then
      let (negative, digits) := Decimal.splitSign cs
      if digits.isEmpty || !digits.all Char.isDigit then none else some (some (negative, digits))
    else none

/-- Reads a whole word as a numeral: no digit may follow a leading zero, and a point and an
exponent need at least one digit. -/
def ofWord? (word : List Char) : Option Numeral := do
  let (negative, cs) := match word with
    | '-' :: cs => (true, cs)
    | cs => (false, cs)
  let whole := cs.takeWhile Char.isDigit
  if whole.isEmpty || (whole.head? = some '0' && whole.length > 1) then none
  let (fraction, cs) ← fraction? (cs.dropWhile Char.isDigit)
  let exponent ← exponent? cs
  some ⟨negative, whole, fraction, exponent⟩

def maxSignificand : Nat := UInt64.size - 1

/-- Reads digits into the `significand` for as long as it fits; the digits that no longer fit are
left. -/
def accumulate (significand : Nat) : List Char → Nat × List Char
  | [] => (significand, [])
  | d :: ds =>
    let next := significand * 10 + (d.toNat - '0'.toNat)
    if next > maxSignificand then (significand, d :: ds) else accumulate next ds

/-- The greatest exponent that is read digit by digit. -/
def maxExponent : Nat := UInt32.size / 2 - 1

/-- Scales a significand by a power of ten in steps that a double can represent. Nothing is left
when the result is too large for a double; `steps` bounds the divisions, of which three bring every
significand to zero. -/
def scale (f : Float) (exponent : Int) : (steps : Nat) → Option Float
  | 0 => some 0
  | steps + 1 =>
    if exponent.natAbs ≤ 308 then
      let power := Float.ofScientific 1 false exponent.natAbs
      if exponent ≥ 0 then
        let product := f * power
        if product.isInf then none else some product
      else some (f / power)
    else if f == 0 then some f
    else if exponent ≥ 0 then none
    else scale (f / Float.ofScientific 1 false 308) (exponent + 308) steps

/-- The double that the numeral denotes: the leading digits that fit 64 bits, scaled by the power
of ten that the remaining digits and the exponent add up to. -/
def float? (n : Numeral) : Option Float := do
  let (significand, dropped) := accumulate 0 n.whole
  let (significand, read) := match n.fraction with
    | some ds =>
      let (s, unread) := accumulate significand ds
      (s, ds.length - unread.length)
    | none => (significand, 0)
  let shift : Int := dropped.length - read
  let start := Float.ofNat significand
  let magnitude ← match n.exponent with
    | none => scale start shift 8
    | some (negative, digits) =>
      let e := Decimal.digitsValue digits
      if e > maxExponent then
        if significand ≠ 0 && !negative then none else some 0
      else scale start (if negative then shift - e else shift + e) 8
  some (if n.negative then -magnitude else magnitude)

/-- The number that the numeral denotes. Integers of at most 64 bits are kept as `int`, a negative
one only when it fits a signed word; minus zero is a `float`. -/
def number? (n : Numeral) : Option Number :=
  if n.fraction.isNone && n.exponent.isNone then
    let magnitude := Decimal.digitsValue n.whole
    if n.negative then
      if 0 < magnitude ∧ magnitude ≤ Decimal.halfWord then some (.int (-magnitude))
      else n.float?.map .float
    else if magnitude ≤ maxSignificand then some (.int magnitude)
    else n.float?.map .float
  else n.float?.map .float

def ofNat (n : Nat) : Numeral := ⟨false, Nat.toDigits 10 n, none, none⟩

end Numeral

end VoiceTurn.Json
