/-!
# Cursors

A cursor stands at a place in a text, where the line and the column count. `Cursor.skipGap?` skips
what lies between two tokens: blanks, line ends and comments.
-/

namespace VoiceTurn.Settings.Yaml

def isSpace (c : Char) : Bool := c = ' ' || c = '\t'

/-- Whether a word ends before some characters: at a blank, at a line end or at the end of the
text. -/
def endsWord : List Char → Bool
  | [] => true
  | c :: _ => isSpace c || c = '\n'

def endsLine : List Char → Bool
  | [] => true
  | c :: _ => c = '\n'

/-- Whether a character is punctuation inside of brackets and braces. -/
def isFlowMark (c : Char) : Bool :=
  c = ',' || c = '[' || c = ']' || c = '\x7b' || c = '\x7d'

def startsFlowMark : List Char → Bool
  | [] => false
  | c :: _ => isFlowMark c

/-- Whether the characters of a line are `---` and the end of a word. -/
def isDocumentStart : List Char → Bool
  | '-' :: '-' :: '-' :: cs => endsWord cs
  | _ => false

/-- Whether the characters of a line are `...` and the end of a word. -/
def isDocumentEnd : List Char → Bool
  | '.' :: '.' :: '.' :: cs => endsWord cs
  | _ => false

/-- A place in a text. -/
structure Place where
  line : Nat := 0
  column : Nat := 0
  /-- Whether nothing but blanks comes before it in its line. -/
  isLeading : Bool := true

namespace Place

def afterBlank (p : Place) : Place := { p with column := p.column + 1 }

/-- The place after `length` characters that are no blanks. -/
def after (p : Place) (length : Nat) : Place :=
  { p with column := p.column + length, isLeading := false }

def nextLine (p : Place) : Place := { line := p.line + 1 }

end Place

/-- A place together with the text that follows it. -/
structure Cursor where
  place : Place := {}
  rest : List Char

namespace Cursor

/-- Skips `length` characters that are no blanks. -/
def skip (c : Cursor) (length : Nat) : Cursor := ⟨c.place.after length, c.rest.drop length⟩

def blanks (c : Cursor) : List Char := c.rest.takeWhile isSpace

def skipBlanks (c : Cursor) : Cursor :=
  ⟨{ c.place with column := c.place.column + c.blanks.length }, c.rest.dropWhile isSpace⟩

def skipLine (c : Cursor) : Cursor :=
  ⟨c.place.after (c.rest.takeWhile (· ≠ '\n')).length, c.rest.dropWhile (· ≠ '\n')⟩

/-- Skips the blanks and the comment behind a token; a comment needs a blank in front. -/
def skipTrailing? (c : Cursor) : Option Cursor :=
  match c.skipBlanks.rest with
  | '#' :: _ => if c.blanks.isEmpty then none else some c.skipBlanks.skipLine
  | _ => some c.skipBlanks

/-- What a reader between two tokens is in. -/
inductive Gap where
  | blanks
  /-- A line that is indented by a tab, and may hold nothing but a comment. -/
  | tabbed
  | comment

/-- Skips what lies before the next token. A tab may not indent a token to a column below
`indent`. -/
def gapFrom? (indent : Int) (g : Gap) (p : Place) : List Char → Option Cursor
  | [] => some ⟨p, []⟩
  | c :: cs =>
    if c = '\n' then gapFrom? indent .blanks p.nextLine cs
    else match g with
      | .comment => gapFrom? indent .comment (p.after 1) cs
      | .blanks =>
        if c = '\t' && p.isLeading && p.column < indent then gapFrom? indent .tabbed p.afterBlank cs
        else if isSpace c then gapFrom? indent .blanks p.afterBlank cs
        else if c = '#' then gapFrom? indent .comment (p.after 1) cs
        else some ⟨p, c :: cs⟩
      | .tabbed =>
        if isSpace c then gapFrom? indent .tabbed p.afterBlank cs
        else if c = '#' then gapFrom? indent .comment (p.after 1) cs
        else none

def skipGap? (indent : Int) (c : Cursor) : Option Cursor := gapFrom? indent .blanks c.place c.rest

/-- Skips spaces, line ends and comments, but no tabs. -/
def spacesFrom (isComment : Bool) (p : Place) : List Char → Cursor
  | [] => ⟨p, []⟩
  | c :: cs =>
    if c = '\n' then spacesFrom false p.nextLine cs
    else if isComment || c = '#' then spacesFrom true (p.after 1) cs
    else if c = ' ' then spacesFrom false p.afterBlank cs
    else ⟨p, c :: cs⟩

/-- Skips what lies behind a question mark: spaces and line ends, but no tabs, and one of them at
least. -/
def skipSpaces? (c : Cursor) : Option Cursor :=
  let after := spacesFrom false c.place c.rest
  match c.rest, after.rest with
  | [], _ => none
  | '\t' :: _, _ => none
  | _, '\t' :: _ => none
  | _, _ => some after

end Cursor

def normalizeFrom (read : List Char) : List Char → List Char
  | [] => read.reverse
  | '\x00' :: _ => read.reverse
  | '\r' :: '\n' :: cs => normalizeFrom ('\n' :: read) cs
  | '\r' :: cs => normalizeFrom ('\n' :: read) cs
  | c :: cs => normalizeFrom (c :: read) cs

/-- The characters that count in a text: it ends before a zero character, and every line end is one
newline. -/
def normalize (text : List Char) : List Char := normalizeFrom [] text

end VoiceTurn.Settings.Yaml
