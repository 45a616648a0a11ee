import VoiceTurn.Settings.Node

/-!
# Plain scalars

A scalar without quotes is a number, a truth value or nothing when its text spells one, and a text
otherwise.
-/

namespace VoiceTurn.Settings.Yaml

/-- The value of a numeral in a base up to sixteen. -/
def numeral? (base : Nat) (cs : List Char) : Option Nat :=
  if cs.isEmpty then none
  else cs.foldlM (fun n c =>
    match Json.Token.hexDigit? c with
    | some d => if d < base then some (n * base + d) else none
    | none => none) 0

/-- The integer that a numeral with an optional sign spells, when it is `FitsSigned`. -/
def signed? (base : Nat) (cs : List Char) : Option Int := do
  let (negative, digits) := Decimal.splitSign cs
  let magnitude ← numeral? base digits
  let i : Int := if negative then -magnitude else magnitude
  if Decimal.FitsSigned i then some i else none

/-- An integer behind `0x`, `0o` or a plus sign. -/
def markedInteger? : List Char → Option Int
  | '0' :: 'x' :: cs => signed? 16 cs
  | '0' :: 'o' :: cs => signed? 8 cs
  | '+' :: cs => signed? 10 cs
  | _ => none

/-- The words for infinite and missing numbers that cannot be converted. -/
def pointedWords : List String :=
  [".inf", ".Inf", ".INF", "+.inf", "+.Inf", "+.INF", "-.inf", "-.Inf", "-.INF", ".nan", ".NAN"]

/-- The node of a plain scalar. -/
def plain? (cs : List Char) : Option Node :=
  let s := String.ofList cs
  match markedInteger? cs, signed? 10 cs with
  | some i, _ => some (.int i)
  | none, some i => some (.int i)
  | none, none =>
    if s = "~" || s = "null" then some .nil
    else if s = "true" then some (.flag true)
    else if s = "false" then some (.flag false)
    else if pointedWords.contains s then none
    else match Decimal.float? s with
      | some f => some (.float f)
      | none => some (.text s)

end VoiceTurn.Settings.Yaml
