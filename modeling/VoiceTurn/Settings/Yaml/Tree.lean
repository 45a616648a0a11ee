import VoiceTurn.Settings.Yaml.Token

/-!
# Trees of YAML

A node is built from tokens by a reader that keeps the open tables and lists on a stack. Keys are
texts or integers, and every key occurs once in its table. A node with a name can be used again, as
soon as it is complete. A text holds one document at most.
-/

namespace VoiceTurn.Settings.Yaml

inductive Key where
  | int (i : Int)
  | text (s : String)
  deriving DecidableEq, Repr

namespace Key

def ofNode? : Node → Option Key
  | .int i => some (.int i)
  | .text s => some (.text s)
  | _ => none

def name : Key → String
  | int i => toString i
  | text s => s

end Key

/-- What stands for a node: nothing does when a scalar does not fit its tag, or when a name is used
within the node that it names. -/
abbrev Content := Option Node

/-- What has been read of a table. -/
structure Entries where
  done : List (Key × Node) := []
  waiting : Content := none

namespace Entries

/-- Adds a node: the value of the key that waits for one, or else a key. A key without content does
not count, so that its value is the next key. Every key is new. -/
def add? (es : Entries) (n : Content) : Option Entries :=
  match es.waiting with
  | none => some { es with waiting := n }
  | some key => do
    let k ← Key.ofNode? key
    if es.done.any (·.1 = k) then none else some { done := (k, n.getD .nil) :: es.done }

/-- The table of the entries that are `done`; of several keys with one name the last one counts. -/
def table (es : Entries) : Node :=
  .table (es.done.foldr (fun (k, n) table => Dict.insertEntry k.name n table) [])

end Entries

def Tag.content? (text : List Char) : Tag → Option Content
  | .text => some (some (.text (String.ofList text)))
  | .flag =>
    match String.ofList text with
    | "true" => some (some (.flag true))
    | "false" => some (some (.flag false))
    | _ => some none
  | .int => some ((signed? 10 text).map .int)
  | .float =>
    if pointedWords.contains (String.ofList text) then none
    else some ((Decimal.float? (String.ofList text)).map .float)
  | .nil =>
    match String.ofList text with
    | "~" => some (some .nil)
    | "null" => some (some .nil)
    | _ => some none

/-- The content of a plain scalar, behind a tag or not. -/
def scalar? (t : Option Tag) (text : List Char) : Option Content :=
  match t with
  | some t => t.content? text
  | none => (plain? text).map some

/-- The names of nodes. -/
structure Names where
  /-- The number of a node for every name, newest first. -/
  numbers : List (List Char × Nat) := []
  nodes : List (Nat × Node) := []

namespace Names

/-- The number of the next node with a name. -/
def next (names : Names) : Nat := names.numbers.length

/-- Gives a name to the next node; an earlier node with that name loses it. -/
def insert (names : Names) (name : List Char) : Names :=
  { names with numbers := (name, names.next) :: names.numbers }

def complete (names : Names) (number : Nat) (n : Content) : Names :=
  { names with nodes := n.toList.map (number, ·) ++ names.nodes }

def find? (names : Names) (name : List Char) : Option Content :=
  (names.numbers.lookup name).map fun number => names.nodes.lookup number

end Names

/-- How a table or a list is written. -/
inductive Style where
  | block
  | flow
  /-- A list as the items of a key, indented like the key; a table as a pair in brackets. -/
  | bare
  deriving DecidableEq, Repr

/-- What waits for a node. -/
inductive Frame where
  | key (s : Style) (entries : Entries)
  | loneKey (entries : Entries)
  | value (s : Style) (entries : Entries)
  | item (s : Style) (items : List Node)
  | name (number : Nat)

/-- Where a node stands. -/
inductive Context where
  /-- Where a block can begin. -/
  | block
  /-- Behind a key or a colon in a block, where items can begin as well. -/
  | member
  /-- In brackets or braces, where no block can begin. -/
  | flow
  deriving DecidableEq, Repr

def Style.context : Style → Context
  | .block => .member
  | _ => .flow

/-- What a reader expects next. -/
inductive Position where
  /-- A document, or the end of the text. -/
  | start
  /-- A document behind a directive. -/
  | directives (hasVersion : Bool)
  | document
  /-- The end of the text behind a document. -/
  | finished (root : Node)
  /-- What an anchor or a tag belongs to. -/
  | marked (c : Context) (isAnchored : Bool) (tag : Option Tag)
  /-- A further entry of a table, or its end. -/
  | entry (s : Style) (entries : Entries)
  /-- The first entry in braces, or one behind a comma. -/
  | freshEntry (entries : Entries)
  | key (s : Style) (entries : Entries)
  /-- The mark between a key and its value. -/
  | colon (s : Style) (entries : Entries)
  | value (s : Style) (entries : Entries)
  /-- A further item of a list, or its end. -/
  | items (s : Style) (items : List Node)
  /-- The first item in brackets, or one behind a comma. -/
  | freshItem (items : List Node)
  | item (s : Style) (items : List Node)

structure Builder where
  position : Position := .start
  stack : List Frame := []
  names : Names := {}
  /-- The handle of the last directive. -/
  declared : Option Handle := none

namespace Builder

def expect (b : Builder) (position : Position) : Builder := { b with position }

/-- Lets a `Frame` wait for the node that follows. -/
def push (b : Builder) (f : Frame) : Builder := { b with stack := f :: b.stack }

/-- Hands a complete node to the innermost `Frame`. -/
def hand? (b : Builder) (n : Content) : List Frame → Option Builder
  | [] => some { b with position := .finished (n.getD .nil), stack := [] }
  | .name number :: stack => { b with names := b.names.complete number n }.hand? n stack
  | .key s es :: stack =>
    (es.add? n).map fun es => { b with position := .colon s es, stack }
  | .loneKey es :: stack => do
    let es ← (← es.add? n).add? (some .nil)
    some { b with position := .entry .flow es, stack }
  | .value .bare es :: stack => do b.hand? (← es.add? n).table stack
  | .value s es :: stack => (es.add? n).map fun es => { b with position := .entry s es, stack }
  | .item s ns :: stack => some { b with position := .items s (n.getD .nil :: ns), stack }

def complete? (b : Builder) (n : Content) : Option Builder := b.hand? n b.stack

/-! ## Nodes -/

/-- Whether a node can begin with a token in the `Context`. -/
def begins (c : Context) : Token → Bool
  | .scalar .. => true
  | .openBracket => true
  | .openBrace => true
  | .openTable => c ≠ .flow
  | .openList => c ≠ .flow
  | .item => c = .member
  | _ => false

/-- Reads the first token of a node behind its anchor and its tag. -/
def content? (b : Builder) (tag : Option Tag) : Token → Option Builder
  | .scalar true text => (scalar? tag text).bind b.complete?
  | .scalar false text => b.complete? (some (.text (String.ofList text)))
  | .openBracket => some (b.expect (.freshItem []))
  | .openBrace => some (b.expect (.freshEntry {}))
  | .openTable => some (b.expect (.entry .block {}))
  | .openList => some (b.expect (.items .block []))
  | .item => some (b.expect (.item .bare []))
  | _ => none

def anchor (b : Builder) (c : Context) (name : List Char) (tag : Option Tag) : Builder :=
  let number := b.names.next
  ({ b with names := b.names.insert name }.push (.name number)).expect (.marked c true tag)

def tag? (b : Builder) (c : Context) (isAnchored : Bool) (t : TagName) : Option Builder :=
  (t.resolve? b.declared).map fun tag => b.expect (.marked c isAnchored (some tag))

def node? (b : Builder) (c : Context) (t : Token) : Option Builder :=
  match t with
  | .anchor name => some (b.anchor c name none)
  | .tag t => b.tag? c false t
  | .alias name => (b.names.find? name).bind b.complete?
  | t => if begins c t then b.content? none t else none

/-! ## Tables -/

/-- Reads a token between the entries of a table. A value without a key has an empty one. -/
def entry? (b : Builder) (s : Style) (es : Entries) (t : Token) : Option Builder :=
  match s, t with
  | .flow, .comma => some (b.expect (.freshEntry es))
  | .flow, .closeBrace => b.complete? es.table
  | .block, .key => some (b.expect (.key .block es))
  | .block, .value => (es.add? (some .nil)).map fun es => b.expect (.value .block es)
  | .block, .closeBlock => b.complete? es.table
  | _, _ => none

def freshEntry? (b : Builder) (es : Entries) (t : Token) : Option Builder :=
  match t with
  | .closeBrace => b.complete? es.table
  | .key => some (b.expect (.key .flow es))
  | .value => (es.add? (some .nil)).map fun es => b.expect (.value .flow es)
  | t => (b.push (.loneKey es)).node? .flow t

/-! ## Lists -/

def items? (b : Builder) (s : Style) (ns : List Node) (t : Token) : Option Builder :=
  match s, t with
  | .flow, .comma => some (b.expect (.freshItem ns))
  | .flow, .closeBracket => b.complete? (some (.list ns.reverse))
  | .block, .item => some (b.expect (.item .block ns))
  | .block, .closeBlock => b.complete? (some (.list ns.reverse))
  | .bare, .item => some (b.expect (.item .bare ns))
  | _, _ => none

/-- Reads the first token of an item in brackets, or their end. A key begins a pair. -/
def freshItem? (b : Builder) (ns : List Node) (t : Token) : Option Builder :=
  match t with
  | .closeBracket => b.complete? (some (.list ns.reverse))
  | .key => some ((b.push (.item .flow ns)).expect (.key .bare {}))
  | t => (b.push (.item .flow ns)).node? .flow t

/-! ## Keys and values -/

def valueless? (b : Builder) (s : Style) (es : Entries) (t : Token) : Option Builder := do
  let es ← es.add? (some .nil)
  match s with
  | .bare =>
    let b ← b.complete? es.table
    match b.position with
    | .items s ns => b.items? s ns t
    | _ => none
  | s => b.entry? s es t

def colon? (b : Builder) (s : Style) (es : Entries) (t : Token) : Option Builder :=
  if t = .value then some (b.expect (.value s es)) else b.valueless? s es t

/-- Whether a token shows that no value stands where it does. -/
def isVacant (s : Style) (t : Token) : Bool :=
  match s with
  | .block => t = .key || t = .value || t = .closeBlock
  | .flow => t = .comma || t = .closeBrace
  | .bare => t = .comma || t = .closeBracket

def key? (b : Builder) (s : Style) (es : Entries) (t : Token) : Option Builder :=
  if isVacant s t || t = .value then (es.add? (some .nil)).bind fun es => b.colon? s es t
  else (b.push (.key s es)).node? s.context t

def value? (b : Builder) (s : Style) (es : Entries) (t : Token) : Option Builder :=
  if isVacant s t then b.valueless? s es t
  else (b.push (.value s es)).node? s.context t

/-! ## Complete nodes -/

def resumeTable? (b : Builder) (t : Token) : Option Builder :=
  match b.position with
  | .entry s es => b.entry? s es t
  | .colon s es => b.colon? s es t
  | _ => none

/-- Reads a token behind a complete node. The items of a key end with it. -/
def resume? (b : Builder) (t : Token) : Option Builder :=
  match b.position with
  | .finished _ => if t = .documentEnd then some b else none
  | .items .bare ns =>
    if t = .item then b.items? .bare ns t
    else do (← b.complete? (some (.list ns.reverse))).resumeTable? t
  | .items s ns => b.items? s ns t
  | _ => b.resumeTable? t

/-- Reads the first token behind the dash of an item, which can be empty. -/
def item? (b : Builder) (s : Style) (ns : List Node) (t : Token) : Option Builder :=
  if t = .item || t = .closeBlock || (s = .bare && (t = .key || t = .value)) then
    (b.expect (.items s (.nil :: ns))).resume? t
  else (b.push (.item s ns)).node? .block t

/-- Reads a token behind an anchor or a tag. When it cannot belong to them, the node is an empty
scalar. -/
def marked? (b : Builder) (c : Context) (isAnchored : Bool) (tag : Option Tag) (t : Token) :
    Option Builder :=
  match t, isAnchored, tag with
  | .anchor name, false, tag => some (b.anchor c name tag)
  | .tag t, true, none => b.tag? c true t
  | t, _, tag =>
    if begins c t then b.content? tag t
    else do (← b.complete? (← scalar? tag [])).resume? t

/-! ## Documents -/

/-- Reads a directive. The version is given once. -/
def directive? (b : Builder) (hasVersion : Bool) : Directive → Option Builder
  | .version =>
    if hasVersion then none
    else some { b with position := .directives true, declared := none }
  | .handle h => some { b with position := .directives hasVersion, declared := some h }
  | .unknown => some { b with position := .directives hasVersion, declared := none }

def step? (b : Builder) (t : Token) : Option Builder :=
  match b.position with
  | .start =>
    match t with
    | .documentEnd => some b
    | .documentStart => some (b.expect .document)
    | .directive d => b.directive? false d
    | t => b.node? .block t
  | .directives hasVersion =>
    match t with
    | .documentStart => some (b.expect .document)
    | .directive d => b.directive? hasVersion d
    | _ => none
  | .document => b.node? .block t
  | .marked c isAnchored tag => b.marked? c isAnchored tag t
  | .freshEntry es => b.freshEntry? es t
  | .key s es => b.key? s es t
  | .value s es => b.value? s es t
  | .freshItem ns => b.freshItem? ns t
  | .item s ns => b.item? s ns t
  | _ => b.resume? t

/-- Repeated `step?`. A text without a document is an empty table. -/
def build? (b : Builder) : List Token → Option Node
  | [] =>
    match b.position with
    | .start => some (.table [])
    | .finished n => some n
    | _ => none
  | t :: ts => (b.step? t).bind fun b => b.build? ts

end Builder

def tree? (ts : List Token) : Option Node := Builder.build? {} ts

end VoiceTurn.Settings.Yaml
