import VoiceTurn.Settings.Yaml.Literal
import VoiceTurn.Settings.Yaml.Plain
import VoiceTurn.Settings.Yaml.Tag

/-!
# Tokens of YAML

A text is read into scalars and marks. Indentation opens and closes blocks, so a reader keeps the
columns of the open blocks; and since only the colon shows that a scalar was a key, it keeps the
place of what may still turn out to be one. A colon in brackets may have to open a table as well.
-/

namespace VoiceTurn.Settings.Yaml

/-- The lexical elements of a text. -/
inductive Token where
  | openTable
  | openList
  | closeBlock
  | item
  | key
  | value
  | openBrace
  | closeBrace
  | openBracket
  | closeBracket
  | comma
  | scalar (isPlain : Bool) (text : List Char)
  | documentStart
  | documentEnd
  | anchor (name : List Char)
  | alias (name : List Char)
  | tag (t : TagName)
  | directive (d : Directive)
  deriving DecidableEq, Repr

/-- A column to which lines are indented. -/
structure Level where
  column : Nat
  /-- Whether a block was opened there; otherwise it only bounds what belongs to an item or a
  value. -/
  isBlock : Bool

/-- Something that may turn out to be a key. -/
structure Candidate where
  /-- The number of tokens before it. -/
  position : Nat
  place : Place
  /-- Whether nothing else can stand there. -/
  isRequired : Bool

structure Lexer where
  cursor : Cursor
  tokens : List Token := []
  count : Nat := 0
  /-- The open levels of indentation, innermost first. -/
  levels : List Level := []
  /-- Whether a key can begin here. -/
  keyAllowed : Bool := true
  candidate : Option Candidate := none
  /-- For every open bracket and brace, the candidate that it interrupted, innermost first. -/
  flows : List (Option Candidate) := []
  /-- Whether a colon may follow without a blank behind it. -/
  isAdjacent : Bool := false
  /-- Whether a brace or a question mark has opened a table, so that a colon in brackets does not
  have to. It counts on, also behind the closing brace, until a pair is closed. -/
  hasTable : Bool := false
  /-- Whether the last colon opened a table for its pair, which the next comma, bracket or brace
  closes. -/
  isPair : Bool := false

namespace Lexer

def maxKeyLength : Nat := 1024

def maxDepth : Nat := 255

def isFlow (l : Lexer) : Bool := !l.flows.isEmpty

def indent (l : Lexer) : Int :=
  match l.levels with
  | [] => -1
  | v :: _ => v.column

def column (l : Lexer) : Nat := l.cursor.place.column

def emit (l : Lexer) (t : Token) : Lexer :=
  { l with tokens := t :: l.tokens, count := l.count + 1, isAdjacent := false }

/-- Adds tokens, newest first, in front of all but the first `position` ones. -/
def insert (l : Lexer) (position : Nat) (new : List Token) : Lexer :=
  let later := l.count - position
  { l with
    tokens := l.tokens.take later ++ new ++ l.tokens.drop later
    count := l.count + new.length }

def skip (l : Lexer) (length : Nat) : Lexer := { l with cursor := l.cursor.skip length }

def skipTrailing? (l : Lexer) : Option Lexer :=
  l.cursor.skipTrailing?.map fun cursor => { l with cursor }

/-! ## Keys -/

/-- Notes that what follows may be a key. -/
def noteCandidate (l : Lexer) : Lexer :=
  let isRequired := !l.isFlow && match l.levels with
    | [] => false
    | v :: _ => v.isBlock && v.column = l.column
  if l.keyAllowed then { l with candidate := some ⟨l.count, l.cursor.place, isRequired⟩ } else l

/-- Gives up the candidate, unless it `isRequired`. -/
def dropCandidate? (l : Lexer) : Option Lexer :=
  match l.candidate with
  | some k => if k.isRequired then none else some { l with candidate := none }
  | none => some l

/-- Gives up a candidate that is on an earlier line or longer than `maxKeyLength`. -/
def dropStale? (l : Lexer) : Option Lexer :=
  match l.candidate with
  | some k =>
    if !l.isFlow && (k.place.line < l.cursor.place.line ||
        k.place.column + maxKeyLength < l.column) then l.dropCandidate?
    else some l
  | none => some l

/-! ## Indentation -/

/-- Closes the levels beyond `column`. -/
def closeTo (l : Lexer) (column : Int) : Lexer :=
  if l.isFlow then l
  else
    let beyond := l.levels.takeWhile fun v => column < v.column
    (beyond.filter (·.isBlock)).foldl (fun l _ => l.emit .closeBlock)
      { l with levels := l.levels.dropWhile fun v => column < v.column }

/-- Forgets the innermost levels that are no `isBlock`. -/
def dropBounds (l : Lexer) : Lexer := { l with levels := l.levels.dropWhile (!·.isBlock) }

/-- Makes room for a block at `column`: a bound that lies there or before it gives way to it. -/
def yieldBound (l : Lexer) (column : Nat) : Lexer :=
  match l.levels with
  | v :: levels => if !v.isBlock && v.column ≤ column then { l with levels } else l
  | [] => l

/-- Opens a block at `column` if that is deeper than the innermost level. Its token comes behind the
first `position` ones, together with those that are already `due` there, newest first. -/
def openBlock (l : Lexer) (column position : Nat) (opening : Token) (due : List Token) : Lexer :=
  if l.isFlow then l.insert position due
  else
    let l := l.yieldBound column
    if l.indent < column then
      { l with levels := ⟨column, true⟩ :: l.levels }.insert position (due ++ [opening])
    else l.insert position due

/-- Closes the table of a pair in brackets, if it `isPair`. -/
def closePair (l : Lexer) : Lexer :=
  if l.isPair then { l with isPair := false, hasTable := false }.emit .closeBrace else l

/-- Bounds what belongs to an item or a value: it is indented deeper than the block. -/
def bound (l : Lexer) : Lexer :=
  match l.levels with
  | v :: _ =>
    if !l.isFlow && v.isBlock then { l with levels := ⟨v.column + 1, false⟩ :: l.levels } else l
  | [] => l

/-! ## Marks -/

def readDocumentMark? (l : Lexer) (t : Token) : Option Lexer := do
  let l ← (l.closeTo (-1)).dropCandidate?
  let l := ({ l with keyAllowed := false }.skip 3).emit t
  match t with
  | .documentEnd =>
    let l ← l.skipTrailing?
    if endsLine l.cursor.rest then some l else none
  | _ => some l

def readItem? (l : Lexer) : Option Lexer := do
  if l.isFlow || !l.keyAllowed then none
  let l := (l.openBlock l.column l.count .openList []).skip 1
  let hasTab := l.cursor.blanks.contains '\t'
  let l ← l.skipTrailing?
  let isDash := match l.cursor.rest with
    | '-' :: cs => endsWord cs
    | _ => false
  if hasTab && isDash then none
  let l := if endsLine l.cursor.rest || startsFlowMark l.cursor.rest then l.bound else l
  some ({ ← l.dropCandidate? with keyAllowed := true }.emit .item)

/-- Whether a colon is followed by tabs and then a word. -/
def isTabbedWord (c : Cursor) : Bool :=
  match c.skipBlanks.rest with
  | d :: _ =>
    !c.blanks.isEmpty && c.blanks.all (· = '\t') && (d.isAlphanum || d = '_' || d = '-')
  | [] => false

/-- Reads the question mark in front of a key. -/
def readKey? (l : Lexer) : Option Lexer := do
  if !l.isFlow && !l.keyAllowed then none
  let l ← (l.openBlock l.column l.count .openTable []).dropCandidate?
  let cursor ← (l.cursor.skip 1).skipSpaces?
  let hasTable := l.hasTable || l.isFlow
  some ({ l with cursor, hasTable, keyAllowed := !l.isFlow }.emit .key)

/-- Reads the colon in front of a value. When there is a `Candidate`, it was the key. A pair in
brackets has its key in the line of the colon. -/
def readValue? (l : Lexer) : Option Lexer := do
  let place := l.cursor.place
  let isPair := l.isFlow && !l.hasTable
  let l := { l with isPair }.skip 1
  if isTabbedWord l.cursor then none
  match l.candidate with
  | some k =>
    if isPair && k.place.line < place.line then none
    let due := if isPair then [.key, .openBrace] else [.key]
    let l := (l.openBlock k.place.column k.position .openTable due).bound
    some ({ l with candidate := none, keyAllowed := false }.emit .value)
  | none =>
    if !l.isFlow && !l.keyAllowed then none
    let due := if isPair then [.openBrace] else []
    let l := (l.openBlock place.column l.count .openTable due).bound
    some ({ l with keyAllowed := !l.isFlow }.emit .value)

/-- Reads an opening bracket or brace, which may begin a key. -/
def openFlow? (l : Lexer) (t : Token) : Option Lexer := do
  let l := l.noteCandidate.bound
  if l.flows.length ≥ maxDepth then none
  let hasTable := l.hasTable || t = .openBrace
  let flows := l.candidate :: l.flows
  let l := { l with flows, candidate := none, keyAllowed := true, hasTable }
  some ((← (l.skip 1).skipTrailing?).emit t)

def closeFlow? (l : Lexer) (t : Token) : Option Lexer := do
  let l ← l.dropCandidate?
  match l.flows with
  | [] => none
  | candidate :: flows =>
    let l := { l with candidate, flows, keyAllowed := false }.closePair
    some { (← (l.skip 1).skipTrailing?).emit t with isAdjacent := true }

def readComma? (l : Lexer) : Option Lexer := do
  if !l.isFlow then none
  let l := { ← l.dropCandidate? with keyAllowed := true }.closePair
  some ((← (l.skip 1).skipTrailing?).emit .comma)

/-! ## Scalars -/

/-- Moves the cursor over what lies before the next token; keys may begin on a new line. -/
def skipGap? (l : Lexer) : Option Lexer := do
  let cursor ← l.cursor.skipGap? l.indent
  let isNewLine := l.cursor.place.line < cursor.place.line
  some { l with cursor, keyAllowed := l.keyAllowed || (!l.isFlow && isNewLine) }

/-- Reads a scalar in quotes. Nothing but punctuation may follow it in its line. -/
def readQuoted? (l : Lexer) (quote : Char) : Option Lexer := do
  let line := l.cursor.place.line
  let l := { l.noteCandidate with keyAllowed := false }
  let (text, cursor) ← quoted? quote l.indent l.cursor
  let l ← { l with cursor }.skipTrailing?
  let isClosed := match l.cursor.rest with
    | [] => true
    | c :: _ =>
      c = '\n' || (c = ':' && (l.isFlow || line = l.cursor.place.line)) ||
        (l.isFlow && (c = ',' || c = ']' || c = '\x7d'))
  if isClosed then some { (← l.skipGap?).emit (.scalar false text) with isAdjacent := true }
  else none

def readPlain? (l : Lexer) : Option Lexer := do
  let l := { l.noteCandidate with keyAllowed := false }.dropBounds
  if l.isFlow && (l.column : Int) ≤ l.indent then none
  let (text, cursor) ← plainText? l.isFlow (l.indent + 1) l.cursor
  some ({ l with cursor, keyAllowed := cursor.place.isLeading }.emit (.scalar true text))

def readLiteral? (l : Lexer) : Option Lexer := do
  let l := { l.noteCandidate with keyAllowed := true }.dropBounds
  let (text, cursor) ← literal? l.indent l.cursor
  some ({ l with cursor }.emit (.scalar false text))

/-! ## Anchors and tags -/

def isAnchorChar (c : Char) : Bool := !isSpace c && c ≠ '\n' && !isFlowMark c && c ≠ '\ufeff'

/-- Reads the name behind an ampersand or an asterisk. -/
def readName? (l : Lexer) (t : List Char → Token) (cs : List Char) : Option Lexer :=
  let name := cs.takeWhile isAnchorChar
  if name.isEmpty then none
  else some (({ l.noteCandidate with keyAllowed := false }.skip (name.length + 1)).emit (t name))

/-- Reads a tag. A blank must follow it. -/
def readTag? (l : Lexer) (cs : List Char) : Option Lexer := do
  let (t, rest) ← tagName? cs
  let length := cs.length - rest.length
  let l := { l.noteCandidate with keyAllowed := false }.skip (length + 1)
  let isClosed := endsWord rest || (l.isFlow && startsFlowMark rest)
  if isClosed then some (l.emit (.tag t)) else none

def readDirective? (l : Lexer) (cs : List Char) : Option Lexer := do
  let l ← (l.closeTo (-1)).dropCandidate?
  let (d, rest) ← directive? cs
  let length := cs.length - rest.length
  let l ← ({ l with keyAllowed := false }.skip (length + 1)).skipTrailing?
  if endsLine l.cursor.rest then some (l.emit (.directive d)) else none

/-! ## Texts -/

def read? (l : Lexer) (c : Char) (cs : List Char) : Option Lexer :=
  if l.column = 0 && c = '%' then l.readDirective? cs
  else if l.column = 0 && isDocumentStart (c :: cs) then l.readDocumentMark? .documentStart
  else if l.column = 0 && isDocumentEnd (c :: cs) then l.readDocumentMark? .documentEnd
  else if l.column < l.indent then none
  else match c with
    | '[' => l.openFlow? .openBracket
    | '\x7b' => l.openFlow? .openBrace
    | ']' => l.closeFlow? .closeBracket
    | '\x7d' => l.closeFlow? .closeBrace
    | ',' => l.readComma?
    | '\'' => l.readQuoted? '\''
    | '"' => l.readQuoted? '"'
    | '-' => if endsWord cs then l.readItem? else l.readPlain?
    | '?' => if endsWord cs then l.readKey? else l.readPlain?
    | ':' =>
      if endsWord cs || (l.isFlow && (l.isAdjacent || startsFlowMark cs)) then l.readValue?
      else l.readPlain?
    | '&' => l.readName? .anchor cs
    | '*' => l.readName? .alias cs
    | '!' => l.readTag? cs
    | '|' => if l.isFlow then l.readPlain? else l.readLiteral?
    | '>' => if l.isFlow then l.readPlain? else l.readLiteral?
    | c => if "%@`".toList.contains c then none else l.readPlain?

/-- Moves the cursor to the next token. A colon on a further line is no longer `isAdjacent`. -/
def advance? (l : Lexer) : Option Lexer := do
  let line := l.cursor.place.line
  let l ← (← l.skipGap?).dropStale?
  let isAdjacent := l.isAdjacent && line = l.cursor.place.line
  some ({ l with isAdjacent }.closeTo l.column)

/-- Reads the remaining tokens; every token takes a character at least, so `length` bounds their
number. -/
def finish? : (length : Nat) → Lexer → Option (List Token)
  | 0, _ => none
  | length + 1, l => do
    let l ← l.advance?
    match l.cursor.rest with
    | [] =>
      let l ← (l.closeTo (-1)).dropCandidate?
      if l.isFlow then none else some l.tokens.reverse
    | c :: cs => finish? length (← l.read? c cs)

end Lexer

def tokens? (text : List Char) : Option (List Token) :=
  Lexer.finish? (text.length + 1) { cursor := { rest := text } }

end VoiceTurn.Settings.Yaml
