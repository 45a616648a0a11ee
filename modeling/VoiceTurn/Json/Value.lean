import VoiceTurn.Json.Tree
import VoiceTurn.Decimal.Layout
import VoiceTurn.Dict

/-!
# JSON values

The value of a document and its compact text. Objects are sorted by key, the last of repeated keys
counts, numbers are integers of 64 bits or doubles, and at most 127 arrays and objects may be
nested.
-/

namespace VoiceTurn.Json

/-- A value; the members of an `object` are sorted by key and have different keys. -/
inductive Value where
  | null
  | bool (b : Bool)
  | number (n : Number)
  | string (s : String)
  | array (items : List Value)
  | object (members : List (String × Value))

namespace Value

def ofMembers (ms : List (String × Value)) : Value :=
  .object (ms.foldl (fun sorted (k, v) => Dict.insertEntry k v sorted) [])

def ofNat (n : Nat) : Value := .number (.int n)

/-- The member of an `object` with the given key. -/
def get? (key : String) : Value → Option Value
  | .object ms => ms.lookup key
  | _ => none

def text? : Value → Option String
  | .string s => some s
  | _ => none

/-- The fields of a record, by the `names` of its fields in order; a field may be missing. -/
def fields? (names : List String) : Value → Option (List (Option Value))
  | .object members => some (names.map (members.lookup ·))
  | .array items =>
    if items.length ≤ names.length then
      some (items.map some ++ List.replicate (names.length - items.length) none)
    else none
  | _ => none

/-- How many arrays and objects may be nested. -/
def maxDepth : Nat := 127

mutual

/-- The value of a tree that nests at most `depth` arrays and objects. -/
def ofTree? (depth : Nat) : Tree → Option Value
  | .null => some .null
  | .bool b => some (.bool b)
  | .number n => n.number?.map .number
  | .string s => s.map .string
  | .array items => if depth = 0 then none else (ofItems? (depth - 1) items).map .array
  | .object members => if depth = 0 then none else (ofMembers? (depth - 1) members).map ofMembers

def ofItems? (depth : Nat) : List Tree → Option (List Value)
  | [] => some []
  | t :: ts => do
    let v ← ofTree? depth t
    let vs ← ofItems? depth ts
    some (v :: vs)

def ofMembers? (depth : Nat) : List (Option String × Tree) → Option (List (String × Value))
  | [] => some []
  | (k, t) :: ms => do
    let k ← k
    let v ← ofTree? depth t
    let vs ← ofMembers? depth ms
    some ((k, v) :: vs)

end

/-- The value of a document that nests at most `maxDepth` arrays and objects. -/
def read? (text : List Char) : Option Value := do ofTree? maxDepth (← Tree.read? text)

/-! ## Text -/

/-- How doubles are written: without an exponent from `0.00001` to below `1e+16`, a whole number
with `.0`, a tie to the even digit. -/
def floatLayout : Decimal.Layout := ⟨.even, fun power => -5 ≤ power && power ≤ 15, true⟩

/-- The hexadecimal digits of an escaped control character. -/
def unitDigits (n : Nat) : List Char :=
  ['0', '0', Nat.digitChar (n / 16), Nat.digitChar (n % 16)]

/-- A character as it is written inside a string. -/
def escape (c : Char) : List Char :=
  if c = '"' then ['\\', '"']
  else if c = '\\' then ['\\', '\\']
  else if c = '\x08' then ['\\', 'b']
  else if c = '\x0c' then ['\\', 'f']
  else if c = '\n' then ['\\', 'n']
  else if c = '\r' then ['\\', 'r']
  else if c = '\t' then ['\\', 't']
  else if c.toNat < 0x20 then '\\' :: 'u' :: unitDigits c.toNat
  else [c]

/-- A string with its quotes. -/
def quote (s : String) : List Char := '"' :: s.toList.flatMap escape ++ ['"']

def numberText : Number → List Char
  | .int n =>
    if n < 0 then '-' :: Nat.toDigits 10 n.natAbs else Nat.toDigits 10 n.natAbs
  | .float f => (floatLayout.write f).toList

mutual

/-- The text of a value, without blanks between its tokens. -/
def text : Value → List Char
  | .null => ['n', 'u', 'l', 'l']
  | .bool true => ['t', 'r', 'u', 'e']
  | .bool false => ['f', 'a', 'l', 's', 'e']
  | .number n => numberText n
  | .string s => quote s
  | .array items => '[' :: itemsText items ++ [']']
  | .object members => '\x7b' :: membersText members ++ ['\x7d']

def itemsText : List Value → List Char
  | [] => []
  | [v] => v.text
  | v :: vs => v.text ++ ',' :: itemsText vs

def membersText : List (String × Value) → List Char
  | [] => []
  | [(k, v)] => quote k ++ ':' :: v.text
  | (k, v) :: ms => quote k ++ ':' :: v.text ++ ',' :: membersText ms

end

def render (v : Value) : String := String.ofList v.text

end Value

end VoiceTurn.Json
