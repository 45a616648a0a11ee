import VoiceTurn.Json.Tree
import VoiceTurn.Dict

/-!
# Typed documents

Readers of trees for the shapes that records are made of. A record is given by its members or by
its fields in order. A known member must not be repeated, and members that are not known are
ignored.
-/

namespace VoiceTurn.Json.Tree

def text? : Tree → Option String
  | .string s => s
  | _ => none

def flag? : Tree → Option Bool
  | .bool b => some b
  | _ => none

/-- The value of an integer below `bound`. -/
def natBelow? (bound : Nat) : Tree → Option Nat
  | .number n =>
    match n.number? with
    | some (.int i) => if 0 ≤ i ∧ i.toNat < bound then some i.toNat else none
    | _ => none
  | _ => none

/-- One of several choices, given by its name or as the only member of an object, with the value
`null`. -/
def choice? {α : Type} (choices : List α) (name : α → String) : Tree → Option α
  | .string (some s) => choices.find? (name · = s)
  | .object [(some s, .null)] => choices.find? (name · = s)
  | _ => none

def entries? : List (Option String × Tree) → Option (List (String × String))
  | [] => some []
  | (k, t) :: ms => do
    let k ← k
    let s ← t.text?
    let es ← entries? ms
    some ((k, s) :: es)

/-- A dictionary of texts; the last entry of a key counts. -/
def dict? : Tree → Option (Dict String)
  | .object members => (entries? members).map Dict.ofList
  | _ => none

/-- Whether at most one of the members has the key `name`. -/
def occursOnce (members : List (Option String × Tree)) (name : String) : Bool :=
  (members.filter (·.1 = some name)).length ≤ 1

/-- The fields of a record, by the `names` of its fields in order; a field may be missing. -/
def fields? (names : List String) : Tree → Option (List (Option Tree))
  | .object members =>
    if members.all (·.1.isSome) && names.all (occursOnce members) then
      some (names.map (lookup · members))
    else none
  | .array items =>
    if items.length ≤ names.length then
      some (items.map some ++ List.replicate (names.length - items.length) none)
    else none
  | _ => none

end VoiceTurn.Json.Tree
