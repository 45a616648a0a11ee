import VoiceTurn.Decimal.Layout
import VoiceTurn.Decimal.Reading
import VoiceTurn.Json.Value
import VoiceTurn.Settings.Source
import VoiceTurn.Text.Lowercase

/-!
# Layered settings

Settings that come from several layers are gathered in one tree of nodes. Tables are merged key by
key under lowercase keys, and any other value replaces what was there. When a setting is read, its
node is converted to the type of the setting as far as that makes sense.
-/

namespace VoiceTurn.Settings

/-- A node of the gathered settings. -/
inductive Node where
  | nil
  | flag (b : Bool)
  | int (i : Int)
  | float (f : Float)
  | text (s : String)
  | list (items : List Node)
  | table (entries : List (String × Node))

namespace Node

/-- The entries of a `table`; nothing else has any. -/
def entries : Node → List (String × Node)
  | table es => es
  | _ => []

/-- The items of a `list`; nothing else has any. -/
def items : Node → List Node
  | list ns => ns
  | _ => []

def get? (n : Node) (key : String) : Option Node := n.entries.lookup key

/-! ## Merging -/

mutual

/-- Puts a value under a key. A `table` is merged into what is there, entry by entry; another value
replaces it. What is not a table becomes one. -/
def put (n : Node) (key : String) : Node → Node
  | .table incoming =>
    let target := (n.get? (lowercase key)).getD (.table [])
    .table (Dict.insertEntry (lowercase key) (putAll target incoming) n.entries)
  | value => .table (Dict.insertEntry (lowercase key) value n.entries)

/-- Repeated `put`. -/
def putAll (n : Node) : List (String × Node) → Node
  | [] => n
  | (key, value) :: es => putAll (n.put key value) es

end

/-- A step of a path: a key of a table, or the place of an item in a list. -/
inductive Step where
  | key (name : String)
  | index (i : Int)
  deriving DecidableEq, Repr

/-- The place of an item in a list of the given `length`; negative numbers count from its end. -/
def place (i : Int) (length : Nat) : Nat :=
  if 0 ≤ i then i.toNat else length - i.natAbs

/-- A list that has an item at `i`: it is filled up with `nil`. -/
def extend (ns : List Node) (i : Nat) : List Node :=
  ns ++ List.replicate (i + 1 - ns.length) .nil

/-- Puts a value at the end of a path; what is on the way becomes a `table` or a `list`. -/
def putAt (n value : Node) : List Step → Node
  | [] => value
  | [.key k] => n.put k value
  | .key k :: rest =>
    let k := lowercase k
    .table (Dict.insertEntry k (putAt ((n.get? k).getD .nil) value rest) n.entries)
  | .index i :: rest =>
    let at_ := place i n.items.length
    let items := extend n.items at_
    .list (items.set at_ (putAt (items[at_]?.getD .nil) value rest))

/-! ## Paths -/

/-- Whether a character can be part of a name in a path. -/
def isNameChar (c : Char) : Bool := c.isAlphanum || c = '_' || c = '-' || c = ' '

/-- Reads the number of an index, which may be surrounded by blanks. -/
def index? (cs : List Char) : Option Int :=
  let trimmed := (cs.dropWhile fun c => c = ' ' || c = '\t').reverse.dropWhile
    fun c => c = ' ' || c = '\t'
  let (negative, digits) := match trimmed.reverse with
    | '-' :: ds => (true, ds)
    | ds => (false, ds)
  let magnitude := Decimal.digitsValue digits
  if digits.isEmpty || !digits.all Char.isDigit then none
  else if negative then if magnitude ≤ Decimal.halfWord then some (-magnitude) else none
  else if magnitude < Decimal.halfWord then some magnitude else none

/-- Where a reader of a path stands: in a name, in an index, or behind one. What has been read of
the step is kept newest first. -/
inductive PathPlace where
  | name (read : List Char)
  | index (read : List Char)
  | closed

/-- Reads a character; a `Step` that is completed is put in front of the earlier ones. -/
def pathStep? (p : PathPlace) (steps : List Step) (c : Char) : Option (PathPlace × List Step) :=
  match p with
  | .name read =>
    if isNameChar c then some (.name (c :: read), steps)
    else if read.isEmpty then none
    else
      let steps := .key (String.ofList read.reverse) :: steps
      if c = '.' then some (.name [], steps)
      else if c = '[' then some (.index [], steps)
      else none
  | .index read =>
    if c = ']' then (index? read.reverse).map fun i => (.closed, .index i :: steps)
    else some (.index (c :: read), steps)
  | .closed =>
    if c = '.' then some (.name [], steps)
    else if c = '[' then some (.index [], steps)
    else none

def pathFrom? (p : PathPlace) (steps : List Step) : List Char → Option (List Step)
  | [] =>
    match p with
    | .name [] => none
    | .name read => some (.key (String.ofList read.reverse) :: steps).reverse
    | .index _ => none
    | .closed => some steps.reverse
  | c :: cs =>
    match pathStep? p steps c with
    | some (p, steps) => pathFrom? p steps cs
    | none => none

/-- The path that a key spells: names separated by points, with indices in brackets. A key that
spells none is a name by itself. -/
def path (key : String) : List Step := (pathFrom? (.name []) [] key.toList).getD [.key key]

/-- Puts the entries of a layer into the gathered settings, each at its `path`. -/
def overlay (n : Node) (layer : List (String × Node)) : Node :=
  layer.foldl (fun n (key, value) => n.putAt value (path key)) n

/-! ## Conversions -/

/-- The integer nearest to a double, a half away from zero; negative ones and none at all count as
zero, and what is too large as the greatest word. -/
def roundToWord (f : Float) : Nat :=
  match Decimal.Double.of f with
  | .finite false b => min b.nearest (UInt64.size - 1)
  | .infinite false => UInt64.size - 1
  | _ => 0

def natural? (s : String) : Option Nat :=
  let digits := match s.toList with
    | '+' :: ds => ds
    | ds => ds
  if digits.isEmpty || !digits.all Char.isDigit then none else some (Decimal.digitsValue digits)

def switch? (s : String) : Option Bool :=
  let word := lowercase s
  if word = "true" || word = "on" || word = "yes" then some true
  else if word = "false" || word = "off" || word = "no" then some false
  else none

/-- A node as a number of 64 bits; a `float` is rounded by `roundToWord`. -/
def word64? : Node → Option Nat
  | .int i => if 0 ≤ i then some i.toNat else none
  | .flag b => some b.toNat
  | .float f => some (roundToWord f)
  | .text s =>
    match switch? s with
    | some b => some b.toNat
    | none => (natural? s).bind fun n => if n < UInt64.size then some n else none
  | _ => none

/-- A node as a number below `bound`. -/
def word? (bound : Nat) (n : Node) : Option Nat :=
  n.word64?.bind fun w => if w < bound then some w else none

def flag? : Node → Option Bool
  | .flag b => some b
  | .int i => some (i ≠ 0)
  | .float f => some (f != 0)
  | .text s =>
    if s = "1" then some true else if s = "0" then some false else switch? s
  | _ => none

def text? : Node → Option String
  | .text s => some s
  | .flag b => some (if b then "true" else "false")
  | .int i => some (toString i)
  | .float f => some (Decimal.Layout.full.write f)
  | _ => none

/-- A node as one of several `choices`: its name in any case, or a table with the name as its only
key. -/
def choice? {α : Type} (choices : List α) (name : α → String) : Node → Option α
  | .text s => choices.find? fun a => lowercase (name a) = lowercase s
  | .table [(key, _)] => choices.find? fun a => lowercase (name a) = lowercase key
  | _ => none

def dict? : Node → Option (Dict String)
  | .table es => do
    let texts ← es.mapM fun (k, n) => n.text?.map (k, ·)
    some (Dict.ofList texts)
  | _ => none

/-- The fields of a record: the entries of a `table`, or the items of a `list` in order. -/
def fields? (names : List String) : Node → Option (List (Option Node))
  | .table es => some (names.map fun name => es.lookup name)
  | .list ns => some ((List.range names.length).map fun i => ns[i]?)
  | _ => none

/-- Gathered settings, understood leniently. -/
def source : Source Node where
  fields? := fields?
  word? := word?
  flag? := flag?
  text? := text?
  choice? := choice?
  dict? := dict?

/-! ## Layers -/

mutual

/-- The node of a JSON value; an integer that is not `FitsSigned` becomes a `float`. -/
def ofValue : Json.Value → Node
  | .null => .nil
  | .bool b => .flag b
  | .number (.int i) => if Decimal.FitsSigned i then .int i else .float (Float.ofInt i)
  | .number (.float f) => .float f
  | .string s => .text s
  | .array vs => .list (ofItems vs)
  | .object ms => .table (ofMembers ms)

def ofItems : List Json.Value → List Node
  | [] => []
  | v :: vs => ofValue v :: ofItems vs

def ofMembers : List (String × Json.Value) → List (String × Node)
  | [] => []
  | (k, v) :: ms => (k, ofValue v) :: ofMembers ms

end

/-- The node of the value of an environment variable: a `flag`, an `int` or a `float` when the text
spells one. -/
def ofVariable (s : String) : Node :=
  let word := lowercase s
  if word = "true" then .flag true
  else if word = "false" then .flag false
  else
    let whole := (Decimal.integer? s).bind fun i =>
      if Decimal.FitsSigned i then some (Node.int i) else none
    match whole, Decimal.float? s with
    | some n, _ => n
    | none, some f => .float f
    | none, none => .text s

end Node

end VoiceTurn.Settings
