import VoiceTurn.Text.Lowercase.Table

/-!
# Lowercase text

The full lowercase form of a text: every character by the table, U+0130 as `i` with a dot above,
and a capital sigma as the final form at the end of a word.
-/

namespace VoiceTurn

namespace Lowercase

def inRanges (ranges : Array (Nat × Nat)) (n : Nat) : Bool :=
  ranges.any fun (first, last) => first ≤ n && n ≤ last

/-- Whether a character is skipped when the surroundings of a sigma are examined. -/
def isIgnorable (c : Char) : Bool := inRanges ignorable c.toNat

/-- Whether a character that is not skipped belongs to a word with case. -/
def isCased (c : Char) : Bool := inRanges cased c.toNat

/-- The lowercase form of a character by the `runs` of the table. -/
def single (c : Char) : Char :=
  let n := c.toNat
  match runs.find? fun r => r.first ≤ n && n ≤ r.last && (n - r.first) % r.stride == 0 with
  | some r => Char.ofNat (n + r.distance).toNat
  | none => c

/-- Whether the first character that is not skipped `isCased`. -/
def casedAhead (cs : List Char) : Bool :=
  match cs.dropWhile isIgnorable with
  | c :: _ => isCased c
  | [] => false

/-- The lowercase form of a capital sigma between `before`, nearest first, and `after`. -/
def sigma (before after : List Char) : Char :=
  if casedAhead before && !casedAhead after then 'ς' else 'σ'

/-- The lowercase form of the characters `cs` that follow `before`, nearest first. -/
def chars (before : List Char) : List Char → List Char
  | [] => []
  | c :: cs =>
    let rest := chars (c :: before) cs
    if c = 'Σ' then sigma before cs :: rest
    else if c = 'İ' then 'i' :: '\u0307' :: rest
    else if c.toNat < 0x80 then c.toLower :: rest
    else single c :: rest

end Lowercase

/-- The lowercase form of a text, character by character (`chars`). -/
def lowercase (s : String) : String := String.ofList (Lowercase.chars [] s.toList)

end VoiceTurn
