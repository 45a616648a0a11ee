import VoiceTurn.Json.Numeral

/-!
# Tokens

A document is read character by character into tokens: punctuation, strings, numerals and the three
words. A string whose escapes leave half of a surrogate pair alone spells no text, and is kept as
one.
-/

namespace VoiceTurn.Json

/-- The lexical elements of a document. -/
inductive Token where
  | openArray
  | closeArray
  | openObject
  | closeObject
  | comma
  | colon
  | null
  | bool (b : Bool)
  | number (n : Numeral)
  | string (s : Option String)
  deriving DecidableEq, Repr

/-- A part of a string: a character, or a code unit given by its number. -/
inductive Piece where
  | char (c : Char)
  | unit (u : Nat)
  deriving DecidableEq, Repr

namespace Piece

/-- The text of the pieces; a `unit` from the surrogate range must come in a pair. -/
def text? : List Piece → Option (List Char)
  | [] => some []
  | .char c :: ps => (text? ps).map (c :: ·)
  | .unit u :: ps =>
    if 0xD800 ≤ u ∧ u < 0xDC00 then
      match ps with
      | .unit v :: ps =>
        if 0xDC00 ≤ v ∧ v < 0xE000 then
          (text? ps).map (Char.ofNat (0x10000 + (u - 0xD800) * 0x400 + (v - 0xDC00)) :: ·)
        else none
      | _ => none
    else if 0xDC00 ≤ u ∧ u < 0xE000 then none
    else (text? ps).map (Char.ofNat u :: ·)

def string? (ps : List Piece) : Option String := (text? ps).map String.ofList

end Piece

namespace Token

/-- Where a reader stands: between tokens, in a word, or in a string; what has been read of the
token is kept newest first. -/
inductive Place where
  | between
  | word (read : List Char)
  | text (read : List Piece)
  | escape (read : List Piece)
  | unit (read : List Piece) (owed : Nat) (value : Nat)

def isSpace (c : Char) : Bool := c = ' ' || c = '\n' || c = '\t' || c = '\r'

def punctuation? : Char → Option Token
  | '[' => some .openArray
  | ']' => some .closeArray
  | '\x7b' => some .openObject
  | '\x7d' => some .closeObject
  | ',' => some .comma
  | ':' => some .colon
  | _ => none

def ofWord? (w : List Char) : Option Token :=
  match String.ofList w with
  | "null" => some .null
  | "true" => some (.bool true)
  | "false" => some (.bool false)
  | _ => (Numeral.ofWord? w).map .number

/-- The character that a one-letter escape stands for. -/
def escaped? : Char → Option Char
  | '"' => some '"'
  | '\\' => some '\\'
  | '/' => some '/'
  | 'b' => some '\x08'
  | 'f' => some '\x0c'
  | 'n' => some '\n'
  | 'r' => some '\r'
  | 't' => some '\t'
  | _ => none

def hexDigit? (c : Char) : Option Nat :=
  if c.isDigit then some (c.toNat - '0'.toNat)
  else if 'a' ≤ c ∧ c ≤ 'f' then some (c.toNat - 'a'.toNat + 10)
  else if 'A' ≤ c ∧ c ≤ 'F' then some (c.toNat - 'A'.toNat + 10)
  else none

def start? (c : Char) (tokens : List Token) : Option (Place × List Token) :=
  if isSpace c then some (.between, tokens)
  else if c = '"' then some (.text [], tokens)
  else match punctuation? c with
    | some t => some (.between, t :: tokens)
    | none => some (.word [c], tokens)

/-- Reads one character; the `tokens` completed so far are kept newest first. -/
def step? (p : Place) (tokens : List Token) (c : Char) : Option (Place × List Token) :=
  match p with
  | .between => start? c tokens
  | .word w =>
    if isSpace c || c = '"' || (punctuation? c).isSome then do
      let t ← ofWord? w.reverse
      start? c (t :: tokens)
    else some (.word (c :: w), tokens)
  | .text ps =>
    if c = '"' then some (.between, .string (Piece.string? ps.reverse) :: tokens)
    else if c = '\\' then some (.escape ps, tokens)
    else if c.toNat < 0x20 then none
    else some (.text (.char c :: ps), tokens)
  | .escape ps =>
    if c = 'u' then some (.unit ps 4 0, tokens)
    else (escaped? c).map fun d => (.text (.char d :: ps), tokens)
  | .unit ps owed value => do
    let d ← hexDigit? c
    let value := value * 16 + d
    if owed ≤ 1 then some (.text (.unit value :: ps), tokens)
    else some (.unit ps (owed - 1) value, tokens)

def readFrom? (p : Place) (tokens : List Token) : List Char → Option (List Token)
  | [] =>
    match p with
    | .between => some tokens.reverse
    | .word w => (ofWord? w.reverse).map fun t => (t :: tokens).reverse
    | _ => none
  | c :: cs =>
    match step? p tokens c with
    | some (p, tokens) => readFrom? p tokens cs
    | none => none

def read? (cs : List Char) : Option (List Token) := readFrom? .between [] cs

end Token

end VoiceTurn.Json
