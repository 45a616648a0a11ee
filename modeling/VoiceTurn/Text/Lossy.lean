import VoiceTurn.Text.Utf8

/-!
# Lossy reading of UTF-8

Bytes that are not well-formed UTF-8 can still be shown: every maximal run of bytes that begins a
character without completing it, and every byte that cannot begin one, is replaced by U+FFFD. The
reader looks at one byte at a time and keeps the character it is in the middle of.
-/

namespace VoiceTurn.Utf8

/-- A character whose first bytes have been read: how many bytes it still owes, the range that the
next one must fall into, and the value read so far. -/
structure Started where
  owed : Nat
  low : UInt8
  high : UInt8
  value : Nat

/-- The character that a byte begins, when the byte can begin a character of two or more bytes. -/
def Started.of? (b : UInt8) : Option Started :=
  if 0xC2 ≤ b ∧ b ≤ 0xDF then some ⟨1, 0x80, 0xBF, b.toNat - 0xC0⟩
  else if b = 0xE0 then some ⟨2, 0xA0, 0xBF, 0⟩
  else if b = 0xED then some ⟨2, 0x80, 0x9F, 0xD⟩
  else if 0xE1 ≤ b ∧ b ≤ 0xEF then some ⟨2, 0x80, 0xBF, b.toNat - 0xE0⟩
  else if b = 0xF0 then some ⟨3, 0x90, 0xBF, 0⟩
  else if b = 0xF4 then some ⟨3, 0x80, 0x8F, 4⟩
  else if 0xF1 ≤ b ∧ b ≤ 0xF3 then some ⟨3, 0x80, 0xBF, b.toNat - 0xF0⟩
  else none

/-- The character shown for bytes that spell none. -/
def replacement : Char := '\uFFFD'

/-- Reads a byte between two characters; `shown` holds what has been read, newest first. -/
def beginWith (b : UInt8) (shown : List Char) : Option Started × List Char :=
  if b < 0x80 then (none, Char.ofNat b.toNat :: shown)
  else match Started.of? b with
    | some s => (some s, shown)
    | none => (none, replacement :: shown)

/-- Reads a byte in the middle of a character: it continues the character, or cuts it off and is
then read afresh. -/
def Started.next (s : Started) (b : UInt8) (shown : List Char) : Option Started × List Char :=
  if s.low ≤ b ∧ b ≤ s.high then
    let value := s.value * 64 + (b.toNat - 0x80)
    if s.owed ≤ 1 then (none, Char.ofNat value :: shown)
    else (some ⟨s.owed - 1, 0x80, 0xBF, value⟩, shown)
  else beginWith b (replacement :: shown)

/-- Reads the remaining bytes; an unfinished character at the end becomes `replacement`. -/
def lossyFrom : Option Started → List Char → Bytes → List Char
  | none, shown, [] => shown.reverse
  | some _, shown, [] => (replacement :: shown).reverse
  | none, shown, b :: bs =>
    let (s, shown) := beginWith b shown
    lossyFrom s shown bs
  | some s, shown, b :: bs =>
    let (s, shown) := s.next b shown
    lossyFrom s shown bs

/-- The text of the bytes with U+FFFD for every maximal part that is not well-formed. -/
def lossy (b : Bytes) : String := String.ofList (lossyFrom none [] b)

end VoiceTurn.Utf8
