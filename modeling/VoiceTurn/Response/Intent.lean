import VoiceTurn.Json.Value
import VoiceTurn.Text.Utf8

/-!
# Intents

What an intent payload says: the name of the intent, the text it was recognized in, and named
values. Payloads come in two shapes: the intent is a name or an object with a name, and the values
are members of `slots` or objects listed under `entities`.
-/

namespace VoiceTurn.Response

open Json (Value)

/-- A recognized intent with its values in the order in which they are put into a response. -/
structure Intent where
  name : String
  text : String
  values : List (String × String)
  deriving DecidableEq, Repr

namespace Intent

def member? (members : List (String × Value)) (key : String) : Option Value := members.lookup key

mutual

/-- The text of a value: a `string` is its own text, an `object` with a member `value` has the text
of that value, and everything else is written as JSON. -/
def valueText : Value → String
  | .string s => s
  | .object members => (innerText? members).getD (Value.object members).render
  | v => v.render

/-- The text of the member `value`. -/
def innerText? : List (String × Value) → Option String
  | [] => none
  | (k, v) :: ms => if k = "value" then some (valueText v) else innerText? ms

end

def nameOf (members : List (String × Value)) : String :=
  match member? members "intent" with
  | some (.string s) => s
  | some v => ((v.get? "name").bind Value.text?).getD ""
  | none => ""

/-- The named value that an entry of `entities` gives. -/
def entity? (v : Value) : Option (String × String) := do
  let key ← (v.get? "entity").bind Value.text?
  let value ← v.get? "value"
  some (key, valueText value)

/-- The named values of a payload: `slots` in the order of their keys, then `entities` in the order
in which they are listed. -/
def valuesOf (members : List (String × Value)) : List (String × String) :=
  let slots := match member? members "slots" with
    | some (.object ms) => ms.map fun (k, v) => (k, valueText v)
    | _ => []
  let entities := match member? members "entities" with
    | some (.array vs) => vs.filterMap entity?
    | _ => []
  slots ++ entities

def ofValue? : Value → Option Intent
  | .object members =>
    some ⟨nameOf members, ((member? members "text").bind Value.text?).getD "", valuesOf members⟩
  | _ => none

/-- The intent that a payload describes, if it is a JSON object (`Json.Value.read?`). -/
def read? (payload : Bytes) : Option Intent := do
  let text ← Utf8.decode? payload
  ofValue? (← Value.read? text.toList)

end Intent

end VoiceTurn.Response
