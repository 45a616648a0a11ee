import VoiceTurn.Json.Token

/-!
# Document trees

The structure of a document as it is written: members in order with repetitions, numerals and
strings not yet interpreted. A tree is built from tokens by a reader that keeps the open arrays and
objects on a stack, so documents may be nested to any depth.
-/

namespace VoiceTurn.Json

/-- A document as written. A string or a key is missing when its escapes spell no text. -/
inductive Tree where
  | null
  | bool (b : Bool)
  | number (n : Numeral)
  | string (s : Option String)
  | array (items : List Tree)
  | object (members : List (Option String × Tree))

namespace Tree

/-- An array or object that is still open, with what it holds so far, newest first. An object waits
for the value of its key. -/
inductive Frame where
  | array (items : List Tree)
  | object (members : List (Option String × Tree)) (key : Option String)

/-- What a reader expects next. -/
inductive Place where
  | value
  /-- The first item of an array, or its end. -/
  | firstItem
  /-- The first key of an object, or its end. -/
  | firstKey
  | key (members : List (Option String × Tree))
  | colon (members : List (Option String × Tree)) (key : Option String)
  /-- What follows a complete value. -/
  | after (t : Tree)

def startValue? (stack : List Frame) : Token → Option (Place × List Frame)
  | .null => some (.after .null, stack)
  | .bool b => some (.after (.bool b), stack)
  | .number n => some (.after (.number n), stack)
  | .string s => some (.after (.string s), stack)
  | .openArray => some (.firstItem, stack)
  | .openObject => some (.firstKey, stack)
  | _ => none

/-- Reads the token after a value: it continues or closes the innermost `Frame`. -/
def continue? (t : Tree) : List Frame → Token → Option (Place × List Frame)
  | .array items :: stack, .comma => some (.value, .array (t :: items) :: stack)
  | .array items :: stack, .closeArray => some (.after (.array (t :: items).reverse), stack)
  | .object members key :: stack, .comma => some (.key ((key, t) :: members), stack)
  | .object members key :: stack, .closeObject =>
    some (.after (.object ((key, t) :: members).reverse), stack)
  | _, _ => none

def step? (p : Place) (stack : List Frame) (token : Token) : Option (Place × List Frame) :=
  match p with
  | .value => startValue? stack token
  | .firstItem =>
    match token with
    | .closeArray => some (.after (.array []), stack)
    | token => startValue? (.array [] :: stack) token
  | .firstKey =>
    match token with
    | .closeObject => some (.after (.object []), stack)
    | .string s => some (.colon [] s, stack)
    | _ => none
  | .key members =>
    match token with
    | .string s => some (.colon members s, stack)
    | _ => none
  | .colon members key =>
    match token with
    | .colon => some (.value, .object members key :: stack)
    | _ => none
  | .after t => continue? t stack token

/-- Reads the remaining tokens; every `Frame` must be closed at the end. -/
def build? (p : Place) (stack : List Frame) : List Token → Option Tree
  | [] =>
    match p, stack with
    | .after t, [] => some t
    | _, _ => none
  | token :: tokens =>
    match step? p stack token with
    | some (p, stack) => build? p stack tokens
    | none => none

def read? (text : List Char) : Option Tree := do build? .value [] (← Token.read? text)

/-- The last of the members of `key`. -/
def lookup (key : String) (members : List (Option String × Tree)) : Option Tree :=
  members.foldl (fun found (k, t) => if k = some key then some t else found) none

mutual

/-- The tree with only the last member of every key. -/
def collapse : Tree → Tree
  | .array items => .array (collapseItems items)
  | .object members => .object (collapseMembers members)
  | t => t

def collapseItems : List Tree → List Tree
  | [] => []
  | t :: ts => t.collapse :: collapseItems ts

def collapseMembers : List (Option String × Tree) → List (Option String × Tree)
  | [] => []
  | (k, t) :: ms =>
    let rest := collapseMembers ms
    if rest.any (·.1 = k) then rest else (k, t.collapse) :: rest

end

end Tree

end VoiceTurn.Json
