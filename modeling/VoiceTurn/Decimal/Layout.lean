import VoiceTurn.Decimal.Shortest

/-!
# Decimal layouts

How digits and an exponent are laid out as text: which numbers are written without an exponent, and
whether a whole number keeps a decimal point.
-/

namespace VoiceTurn.Decimal

/-- The decisions of one written form of decimal numbers. -/
structure Layout where
  /-- Which of two equally near shortest decimals is written. -/
  tie : Tie
  /-- Whether a number whose first digit stands at this power of ten has no exponent. -/
  isPlain : Int → Bool
  /-- Whether a whole number without exponent ends in `.0`. -/
  keepsPoint : Bool

namespace Layout

/-- Writes the digits with a decimal point at the place that `exponent` gives. -/
def plain (l : Layout) (digits : List Char) (exponent : Int) : List Char :=
  let point := digits.length + exponent
  if 0 ≤ exponent then
    digits ++ List.replicate exponent.toNat '0' ++ if l.keepsPoint then ['.', '0'] else []
  else if 0 < point then digits.take point.toNat ++ '.' :: digits.drop point.toNat
  else '0' :: '.' :: List.replicate (-point).toNat '0' ++ digits

/-- Writes the digits with the point after the first one and the exponent `power`. -/
def scientific (digits : List Char) (power : Int) : List Char :=
  let mantissa := match digits with
    | d :: rest@(_ :: _) => d :: '.' :: rest
    | ds => ds
  let sign := if power < 0 then '-' else '+'
  mantissa ++ 'e' :: sign :: Nat.toDigits 10 power.natAbs

/-- Writes a decimal number that has been through `strip`. -/
def digits (l : Layout) (d : Digits) : List Char :=
  let ds := Nat.toDigits 10 d.coefficient
  let power := ds.length + d.exponent - 1
  if l.isPlain power then l.plain ds d.exponent else scientific ds power

/-- Writes a finite double; the other doubles have the texts `inf`, `-inf` and `NaN`. -/
def write (l : Layout) (f : Float) : String :=
  let signed (negative : Bool) (cs : List Char) :=
    String.ofList (if negative then '-' :: cs else cs)
  match Double.of f with
  | .zero negative => signed negative (l.plain ['0'] 0)
  | .finite negative b => signed negative (l.digits (b.shortest l.tie))
  | .infinite negative => signed negative ['i', 'n', 'f']
  | .notANumber => "NaN"

end Layout

/-- Every number is written out in full, a whole number without a point, a tie upwards. -/
def Layout.full : Layout := ⟨.up, fun _ => true, false⟩

end VoiceTurn.Decimal
