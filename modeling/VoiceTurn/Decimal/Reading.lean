import VoiceTurn.Decimal.Binary
import VoiceTurn.Decimal.Word

/-!
# Reading decimal numbers

A decimal number is read as the nearest double. Texts are accepted in the usual spelling: an
optional sign, digits with an optional point, an optional exponent, or one of the words for
infinity and for a missing number.
-/

namespace VoiceTurn.Decimal

/-- The double nearest to `coefficient * 10 ^ exponent`. -/
def nearestDouble (negative : Bool) (coefficient : Nat) (exponent : Int) : Float :=
  let magnitude := (Nat.toDigits 10 coefficient).length + exponent
  let f : Float :=
    if coefficient = 0 ∨ magnitude < -400 then 0
    else if magnitude > 400 then 1 / 0
    else Float.ofScientific coefficient (exponent < 0) exponent.natAbs
  if negative then -f else f

def digitsValue (ds : List Char) : Nat :=
  ds.foldl (fun n d => n * 10 + (d.toNat - '0'.toNat)) 0

/-- A sign in front of a text, and the text after it. -/
def splitSign : List Char → Bool × List Char
  | '-' :: cs => (true, cs)
  | '+' :: cs => (false, cs)
  | cs => (false, cs)

/-- The value of an exponent with an optional sign. -/
def exponentValue? (cs : List Char) : Option Int :=
  let (negative, ds) := splitSign cs
  if ds.isEmpty || !ds.all Char.isDigit then none
  else if negative then some (-(digitsValue ds : Int)) else some (digitsValue ds : Int)

/-- Reads the digits, the point and the exponent of a number behind its sign. -/
def unsigned? (negative : Bool) (cs : List Char) : Option Float := do
  let whole := cs.takeWhile Char.isDigit
  let rest := cs.dropWhile Char.isDigit
  let (fraction, rest) := match rest with
    | '.' :: rest => (rest.takeWhile Char.isDigit, rest.dropWhile Char.isDigit)
    | rest => ([], rest)
  if whole.isEmpty && fraction.isEmpty then none
  let exponent ← match rest with
    | [] => some 0
    | e :: rest => if e = 'e' || e = 'E' then exponentValue? rest else none
  some (nearestDouble negative (digitsValue (whole ++ fraction)) (exponent - fraction.length))

/-- Reads a decimal number or one of the words `inf`, `infinity` and `nan` in any case. -/
def float? (s : String) : Option Float :=
  let (negative, cs) := splitSign s.toList
  let word := String.ofList (cs.map Char.toLower)
  if word = "inf" || word = "infinity" then some (if negative then -(1 / 0) else 1 / 0)
  else if word = "nan" then some (0 / 0)
  else unsigned? negative cs

def integer? (s : String) : Option Int :=
  let (negative, ds) := splitSign s.toList
  if ds.isEmpty || !ds.all Char.isDigit then none
  else if negative then some (-(digitsValue ds : Int)) else some (digitsValue ds : Int)

end VoiceTurn.Decimal
