import VoiceTurn.Settings.Yaml.Cursor

/-!
# Literal blocks

After a bar the indented lines that follow are a text as they stand, and after an angle bracket
lines are joined by spaces. What is indented deeper than the first line keeps its line ends.
-/

namespace VoiceTurn.Settings.Yaml

/-- What becomes of the line ends behind the last line. -/
inductive Chomping where
  | strip
  | clip
  | keep
  deriving DecidableEq, Repr

/-- What stands in front of a literal block. -/
structure LiteralHeader where
  isFolded : Bool
  chomping : Chomping := .clip
  /-- By how much the lines are indented, unless the first line shows it. -/
  increment : Option Nat := none

namespace LiteralHeader

def chomping? : Char → Option Chomping
  | '+' => some .keep
  | '-' => some .strip
  | _ => none

/-- Reads the mark of a block with a sign and a digit in any order; gives their number, too. -/
def read? : List Char → Option (LiteralHeader × Nat)
  | [] => none
  | mark :: cs =>
    let h : LiteralHeader := { isFolded := mark = '>' }
    let digit? (c : Char) : Option Nat := if c.isDigit then some (c.toNat - '0'.toNat) else none
    let found : LiteralHeader × Nat := match cs with
      | [] => (h, 1)
      | a :: cs =>
        let b := cs.head?
        match chomping? a, digit? a with
        | some k, _ =>
          match b.bind digit? with
          | some n => ({ h with chomping := k, increment := some n }, 3)
          | none => ({ h with chomping := k }, 2)
        | none, some n =>
          match b.bind chomping? with
          | some k => ({ h with chomping := k, increment := some n }, 3)
          | none => ({ h with increment := some n }, 2)
        | none, none => (h, 1)
    if found.1.increment = some 0 then none else some found

end LiteralHeader

def linesFrom (read : List Char) : List Char → List (List Char)
  | [] => [read.reverse]
  | '\n' :: cs => read.reverse :: linesFrom [] cs
  | c :: cs => linesFrom (c :: read) cs

def unlines : List (List Char) → List Char
  | [] => []
  | [line] => line
  | line :: lines => line ++ '\n' :: unlines lines

/-- The number of spaces in front of a line. -/
def indentation (line : List Char) : Nat := (line.takeWhile (· = ' ')).length

/-- The greatest indentation of the empty lines at the start and of the first line with content. -/
def firstIndentation (widest : Nat) : List (List Char) → Nat
  | [] => widest
  | line :: lines =>
    let widest := max widest (indentation line)
    if indentation line = line.length then firstIndentation widest lines else widest

structure LiteralReader where
  header : LiteralHeader
  /-- The column of the block. -/
  indent : Nat
  /-- The lines read so far without the last line end, newest character first. -/
  read : List Char := []
  /-- Whether a line with content has been read. -/
  isStarted : Bool := false
  /-- Whether a line has ended since `isStarted`. -/
  isEnded : Bool := false
  /-- The number of empty lines since. -/
  empty : Nat := 0
  /-- Whether the last line began with a blank. -/
  isDeeper : Bool := false

namespace LiteralReader

def newlines (n : Nat) : List Char := List.replicate n '\n'

def addLine (r : LiteralReader) (content : List Char) : LiteralReader :=
  let isDeeper := match content with
    | c :: _ => isSpace c
    | [] => false
  let joint :=
    if r.header.isFolded && r.isEnded && !r.isDeeper && !isDeeper then
      if r.empty = 0 then [' '] else newlines r.empty
    else newlines (r.isEnded.toNat + r.empty)
  { r with
    read := content.reverse ++ (joint ++ r.read)
    isStarted := true, isEnded := false, empty := 0, isDeeper }

/-- The text once the block is over; `column` is where the text itself ends, if it does. -/
def finish (r : LiteralReader) (column : Option Nat) : List Char :=
  match r.isStarted, column with
  | false, some _ =>
    match r.header.chomping with
    | .strip => []
    | .clip => ['\n']
    | .keep => newlines (max r.empty 1)
  | _, _ =>
    let missing := match column with
      | some c => (decide (max r.indent 1 ≤ c)).toNat
      | none => 0
    r.read.reverse ++ match r.header.chomping with
      | .strip => []
      | .clip => newlines (r.isEnded.toNat + missing)
      | .keep => newlines (r.isEnded.toNat + missing + r.empty)

/-- Reads the remaining lines, the first of which is the line number `line`. A block may not begin
with a line that is indented less than the block, but more than `outer`. -/
def readFrom? (outer : Int) (r : LiteralReader) (line : Nat) :
    List (List Char) → Option (List Char × Cursor)
  | [] => none
  | l :: ls =>
    let column := min (indentation l) r.indent
    let content := l.drop column
    if content.isEmpty then
      match ls with
      | [] => some (r.finish (some column), ⟨{ line, column }, []⟩)
      | ls => readFrom? outer { r with empty := r.empty + 1 } (line + 1) ls
    else if column < r.indent || (r.indent = 0 && (isDocumentStart l || isDocumentEnd l)) then
      if !r.isStarted && column < r.indent && outer < column then none
      else some (r.finish none, ⟨{ line, column }, unlines (content :: ls)⟩)
    else
      match ls with
      | [] => some ((r.addLine content).finish (some l.length), ⟨{ line, column := l.length }, []⟩)
      | ls => readFrom? outer { r.addLine content with isEnded := true } (line + 1) ls

end LiteralReader

/-- Reads a literal block from its mark on, which stands in a block at the column `outer`. -/
def literal? (outer : Int) (c : Cursor) : Option (List Char × Cursor) := do
  let (header, length) ← LiteralHeader.read? c.rest
  let c ← (c.skip length).skipTrailing?
  match c.rest with
  | [] => some ([], c)
  | '\n' :: '\t' :: _ => none
  | '\n' :: cs =>
    let lines := linesFrom [] cs
    let least := (outer + 1).toNat
    let indent := match header.increment with
      | some n => outer.toNat + n
      | none => max (firstIndentation 0 lines) least
    LiteralReader.readFrom? outer { header, indent } (c.place.line + 1) lines
  | _ => none

end VoiceTurn.Settings.Yaml
