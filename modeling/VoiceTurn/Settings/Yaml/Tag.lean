import VoiceTurn.Json.Token
import VoiceTurn.Settings.Yaml.Cursor

/-!
# Tags and directives of YAML

A tag says what kind of scalar follows it. It is written as a suffix behind a handle, or between
angle brackets, and a directive in front of a document can say what a handle stands for. Only tags
of the core space change how a scalar is read; any other one makes it a text.
-/

namespace VoiceTurn.Settings.Yaml

/-- What a tag says on the scalar that follows it. -/
inductive Tag where
  | flag
  | int
  | float
  | nil
  /-- The scalar is a text as it stands; so are scalars with unknown tags. -/
  | text
  deriving DecidableEq, Repr

/-- A tag as it is written. -/
structure TagName where
  /-- The exclamation marks, and a word between them. A tag between angle brackets has none. -/
  handle : List Char
  suffix : List Char
  deriving DecidableEq, Repr

structure Handle where
  mark : List Char
  space : List Char
  deriving DecidableEq, Repr

/-- A line in front of a document. -/
inductive Directive where
  | version
  | handle (h : Handle)
  | unknown
  deriving DecidableEq, Repr

/-! ## Characters -/

/-- Whether a character can be part of the word in a handle or of the name of a directive. -/
def isHandleChar (c : Char) : Bool := c.isAlphanum || c = '-' || c = '_'

/-- Whether a character can be part of the suffix behind a handle. -/
def isTagChar (c : Char) : Bool := isHandleChar c || "#;/?:@&=+$.~*'()%".toList.contains c

/-- Whether a character can be part of a tag between angle brackets. -/
def isUriChar (c : Char) : Bool := isTagChar c || ",![]".toList.contains c

/-- The byte that two hexadecimal digits spell. -/
def byte? (high low : Char) : Option Nat := do
  some ((← Json.Token.hexDigit? high) * 16 + (← Json.Token.hexDigit? low))

/-- Resolves the escaped bytes of a word. A byte of seven bits is a character of its own. A first
byte of two needs a further one, and the character has both as its code, one above the other; longer
sequences have none. -/
def unescape? : List Char → Option (List Char)
  | [] => some []
  | '%' :: a :: b :: cs => do
    let first ← byte? a b
    if first < 0x80 then return Char.ofNat first :: (← unescape? cs)
    else match cs with
      | '%' :: c :: d :: cs => do
        let further ← byte? c d
        let code := first * 256 + further
        if 0xC0 ≤ first ∧ first < 0xE0 ∧ 0x80 ≤ further ∧ further < 0xC0 ∧ code.isValidChar then
          return Char.ofNat code :: (← unescape? cs)
        else none
      | _ => none
  | '%' :: _ => none
  | c :: cs => do return c :: (← unescape? cs)

/-! ## Tags -/

/-- Reads the tag behind an exclamation mark, and gives the rest back. -/
def tagName? : List Char → Option (TagName × List Char)
  | '<' :: cs => do
    let word := cs.takeWhile isUriChar
    let suffix ← unescape? word
    match cs.drop word.length with
    | '>' :: cs => some (⟨[], suffix⟩, cs)
    | _ => none
  | cs => do
    let name := cs.takeWhile isHandleChar
    match cs.drop name.length with
    | '!' :: cs =>
      let word := cs.takeWhile isTagChar
      if word.isEmpty then none
      else some (⟨'!' :: name ++ ['!'], ← unescape? word⟩, cs.drop word.length)
    | _ =>
      let word := cs.takeWhile isTagChar
      if word.isEmpty then some (⟨[], ['!']⟩, cs)
      else some (⟨['!'], ← unescape? word⟩, cs.drop word.length)

def coreSpace : List Char := "tag:yaml.org,2002:".toList

/-- The tag that a word of the `coreSpace` spells. -/
def Tag.ofWord (word : List Char) : Tag :=
  match String.ofList word with
  | "bool" => flag
  | "int" => int
  | "float" => float
  | "null" => nil
  | _ => text

namespace TagName

/-- What the `handle` of a tag stands for when nothing is declared; a handle with a word has to
be. -/
def space? (t : TagName) : Option (List Char) :=
  match t.handle with
  | ['!', '!'] => some coreSpace
  | '!' :: _ :: _ => none
  | handle => some handle

/-- What a tag says, under the handle that is `declared`. -/
def resolve? (t : TagName) (declared : Option Handle) : Option Tag := do
  let space ← match declared with
    | some h => if h.mark = t.handle then some h.space else t.space?
    | none => t.space?
  some (if space = coreSpace then .ofWord t.suffix else .text)

end TagName

/-! ## Directives -/

/-- Skips a number of a version, which has nine digits at most. -/
def skipNumber? (cs : List Char) : Option (List Char) :=
  let digits := cs.takeWhile Char.isDigit
  if digits.isEmpty || 9 < digits.length then none else some (cs.drop digits.length)

def skipVersion? (cs : List Char) : Option (List Char) := do
  match ← skipNumber? cs with
  | '.' :: cs => skipNumber? cs
  | _ => none

def mark? : List Char → Option (List Char × List Char)
  | '!' :: cs =>
    let name := cs.takeWhile isHandleChar
    match name, cs.drop name.length with
    | name, '!' :: cs => some ('!' :: name ++ ['!'], cs)
    | [], cs => some (['!'], cs)
    | _, _ => none
  | _ => none

def handle? (cs : List Char) : Option (Handle × List Char) := do
  let (mark, cs) ← mark? cs
  let cs := cs.dropWhile isSpace
  let word := cs.takeWhile isUriChar
  let rest := cs.drop word.length
  match word with
  | c :: _ =>
    if (c = '!' || isTagChar c) && endsWord rest then some (⟨mark, ← unescape? word⟩, rest)
    else none
  | [] => none

/-- Reads the directive behind a percent sign, and gives the rest back. -/
def directive? (cs : List Char) : Option (Directive × List Char) := do
  let name := cs.takeWhile isHandleChar
  let rest := cs.drop name.length
  if name.isEmpty || !endsWord rest then none
  match String.ofList name with
  | "YAML" => some (.version, ← skipVersion? (rest.dropWhile isSpace))
  | "TAG" =>
    let (h, rest) ← handle? (rest.dropWhile isSpace)
    some (.handle h, rest)
  | _ => some (.unknown, rest.dropWhile (· ≠ '\n'))

end VoiceTurn.Settings.Yaml
