import VoiceTurn.Settings.Yaml.Quoted

/-!
# The extent of plain scalars

A scalar without quotes runs up to a colon before a blank, a comment, or a line that is not indented
enough; inside of brackets and braces their punctuation ends it as well.
-/

namespace VoiceTurn.Settings.Yaml

/-- What a reader of a plain scalar is in. -/
inductive Stretch where
  /-- A line, after `blanks` that are kept newest first. -/
  | line (blanks : List Char)
  /-- The start of a further line, after `empty` empty ones. -/
  | start (empty : Nat)
  /-- A further line that is indented by a tab, and may hold nothing but a comment. -/
  | tabbed (empty : Nat)
  | comment (empty : Nat)

namespace Stretch

def breakLine : Stretch → Stretch
  | line _ => start 0
  | start empty => start (empty + 1)
  | tabbed empty => start (empty + 1)
  | comment empty => start (empty + 1)

/-- What comes before the next word, newest first. -/
def text : Stretch → List Char
  | line blanks => blanks
  | start 0 => [' ']
  | start empty => List.replicate empty '\n'
  | _ => []

def isBoundary : Stretch → Bool
  | line blanks => !blanks.isEmpty
  | _ => true

end Stretch

/-- Whether some characters cannot be part of a plain scalar. -/
def stopsPlain (isFlow : Bool) : List Char → Bool
  | [] => true
  | c :: cs =>
    (c = ':' && (endsWord cs || (isFlow && startsFlowMark cs))) || (isFlow && isFlowMark c)

/-- Whether a line of a plain scalar does not continue it. -/
def isOutside (isFlow : Bool) (indent : Int) (p : Place) (cs : List Char) : Bool :=
  (!isFlow && p.column < indent) || (p.column = 0 && (isDocumentStart cs || isDocumentEnd cs))

/-- Reads on in a plain scalar; what has been `read` of it is kept newest first. -/
def plainFrom? (isFlow : Bool) (indent : Int) (p : Place) (s : Stretch) (read : List Char) :
    List Char → Option (List Char × Cursor)
  | [] => some (read.reverse, ⟨p, []⟩)
  | c :: cs =>
    if c = '\n' then plainFrom? isFlow indent p.nextLine s.breakLine read cs
    else match s with
      | .comment _ => plainFrom? isFlow indent (p.after 1) s read cs
      | .tabbed n =>
        if isSpace c then plainFrom? isFlow indent p.afterBlank s read cs
        else if c = '#' then plainFrom? isFlow indent (p.after 1) (.comment n) read cs
        else none
      | .line blanks =>
        if isSpace c then plainFrom? isFlow indent p.afterBlank (.line (c :: blanks)) read cs
        else if stopsPlain isFlow (c :: cs) || (s.isBoundary && c = '#') then
          some (read.reverse, ⟨p, c :: cs⟩)
        else if isFlow && s.isBoundary && c = '-' && startsFlowMark cs then none
        else plainFrom? isFlow indent (p.after 1) (.line []) (c :: (s.text ++ read)) cs
      | .start n =>
        if c = '\t' && p.column < indent then
          plainFrom? isFlow indent p.afterBlank (.tabbed n) read cs
        else if isSpace c then plainFrom? isFlow indent p.afterBlank s read cs
        else if isOutside isFlow indent p (c :: cs) || stopsPlain isFlow (c :: cs) || c = '#' then
          some (read.reverse, ⟨p, c :: cs⟩)
        else if isFlow && c = '-' && startsFlowMark cs then none
        else plainFrom? isFlow indent (p.after 1) (.line []) (c :: (s.text ++ read)) cs

/-- Reads the text of a plain scalar, of which further lines are indented to the column `indent` at
least. -/
def plainText? (isFlow : Bool) (indent : Int) (c : Cursor) : Option (List Char × Cursor) :=
  match c.rest with
  | '-' :: cs =>
    if isFlow && startsFlowMark cs then none
    else plainFrom? isFlow indent c.place (.line []) [] c.rest
  | _ => plainFrom? isFlow indent c.place (.line []) [] c.rest

end VoiceTurn.Settings.Yaml
