import VoiceTurn.Settings.Yaml.Cursor
import VoiceTurn.Settings.Yaml.Scalar

/-!
# Scalars in quotes

A text in quotes may run over several lines. Blanks around a line end do not count, a single line
end is a space, and of several line ends the first one does not count. Double quotes know escapes,
and single quotes are doubled inside of single quotes.
-/

namespace VoiceTurn.Settings.Yaml

/-- The character that a one-letter escape stands for. -/
def escaped? : Char → Option Char
  | '0' => some '\x00'
  | 'a' => some '\x07'
  | 'b' => some '\x08'
  | 't' => some '\t'
  | '\t' => some '\t'
  | 'n' => some '\n'
  | 'v' => some '\x0b'
  | 'f' => some '\x0c'
  | 'r' => some '\r'
  | 'e' => some '\x1b'
  | ' ' => some ' '
  | '"' => some '"'
  | '/' => some '/'
  | '\\' => some '\\'
  | 'N' => some '\u0085'
  | '_' => some '\u00a0'
  | 'L' => some '\u2028'
  | 'P' => some '\u2029'
  | _ => none

def codePoint? (digits : List Char) : Option Char := do
  let n ← numeral? 16 digits
  if n.isValidChar then some (Char.ofNat n) else none

/-- What lies between two words of a scalar. -/
inductive Joint where
  | blanks (read : List Char)
  /-- A line end, and the number of further ones. One that is escaped does not count at all. -/
  | lines (isEscaped : Bool) (further : Nat)

namespace Joint

def breakLine : Joint → Joint
  | blanks _ => lines false 0
  | lines isEscaped further => lines isEscaped (further + 1)

def isBroken : Joint → Bool
  | blanks _ => false
  | lines .. => true

/-- What the joint contributes to the text, newest first. -/
def text : Joint → List Char
  | blanks read => read
  | lines false 0 => [' ']
  | lines _ further => List.replicate further '\n'

end Joint

/-- Whether a word may not stand at the start of a line within quotes: it has to be indented, and
may not mark the bounds of a document. -/
def isMisplaced (indent : Int) (p : Place) (cs : List Char) : Bool :=
  p.column < indent || (p.column = 0 && (isDocumentStart cs || isDocumentEnd cs))

/-- Reads on within quotes; what has been `read` of the text is kept newest first. Every further
line has to be indented to the column `indent` at least. -/
def quotedFrom? (quote : Char) (indent : Int) (p : Place) (j : Joint) (read : List Char) :
    List Char → Option (List Char × Cursor)
  | [] => none
  | c :: cs =>
    if c = '\n' then quotedFrom? quote indent p.nextLine j.breakLine read cs
    else if isSpace c then
      match j with
      | .blanks bs => quotedFrom? quote indent p.afterBlank (.blanks (c :: bs)) read cs
      | j =>
        if c = '\t' && p.column < indent then none
        else quotedFrom? quote indent p.afterBlank j read cs
    else
      let isAfterEscape := match j with
        | .lines true 0 => p.column = 0
        | _ => false
      if isAfterEscape && c = quote then some (read.reverse, ⟨p.after 1, cs⟩)
      else if j.isBroken && isMisplaced indent p (c :: cs) then none
      else
        let read := j.text ++ read
        if c = '\'' && quote = '\'' then
          match cs with
          | '\'' :: cs => quotedFrom? quote indent (p.after 2) (.blanks []) ('\'' :: read) cs
          | cs => some (read.reverse, ⟨p.after 1, cs⟩)
        else if c = quote then some (read.reverse, ⟨p.after 1, cs⟩)
        else if c = '\\' && quote = '"' then
          match cs with
          | '\n' :: cs => quotedFrom? quote indent p.nextLine (.lines true 0) read cs
          | 'x' :: a :: b :: cs => do
            let d ← codePoint? [a, b]
            quotedFrom? quote indent (p.after 4) (.blanks []) (d :: read) cs
          | 'u' :: a :: b :: c :: d :: cs => do
            let e ← codePoint? [a, b, c, d]
            quotedFrom? quote indent (p.after 6) (.blanks []) (e :: read) cs
          | 'U' :: a :: b :: c :: d :: e :: f :: g :: h :: cs => do
            let i ← codePoint? [a, b, c, d, e, f, g, h]
            quotedFrom? quote indent (p.after 10) (.blanks []) (i :: read) cs
          | d :: cs => do
            let e ← escaped? d
            quotedFrom? quote indent (p.after 2) (.blanks []) (e :: read) cs
          | [] => none
        else quotedFrom? quote indent (p.after 1) (.blanks []) (c :: read) cs

def quoted? (quote : Char) (indent : Int) (c : Cursor) : Option (List Char × Cursor) :=
  let c := c.skip 1
  quotedFrom? quote indent c.place (.blanks []) [] c.rest

end VoiceTurn.Settings.Yaml
