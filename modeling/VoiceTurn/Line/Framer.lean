import VoiceTurn.Line.Codec

/-!
# Framing

A stream of bytes is cut after every newline. A line is held until its end as long as it fits the
limit; a longer one is skipped up to its newline and only counted. The framer looks at one byte at
a time, so it does not matter in which portions the bytes arrive. `Frame.ofSegment` says of a
whole line what becomes of it.
-/

namespace VoiceTurn.Line

/-- What a stretch of the stream up to a newline, or up to the end, turns out to be. -/
inductive Frame where
  | line (bytes : Bytes)
  /-- A line that is too long, with its length. -/
  | oversized (length : Nat)
  deriving DecidableEq, Repr

namespace Frame

/-- What a whole line is when at most `limit` bytes may come before its newline. -/
def ofSegment (limit : Nat) (segment : Bytes) : Frame :=
  let content := if segment.getLast? = some newline then segment.length - 1 else segment.length
  if content ≤ limit then .line segment else .oversized segment.length

end Frame

/-- A reader in the middle of a line. -/
inductive Framer where
  /-- The bytes of the line so far, newest first, and how many more may be held. -/
  | holding (held : Bytes) (room : Nat)
  /-- The line is too long; its bytes so far are counted. -/
  | skipping (length : Nat)
  deriving DecidableEq, Repr

namespace Framer

/-- How many bytes may be held for lines of at most `limit` bytes: the newline comes on top. The
number is kept in a word of 64 bits. -/
def capacity (limit : Nat) : Nat := (limit + 1) % UInt64.size

/-- A reader at the start of a line, with `capacity limit` as its room. -/
def fresh (limit : Nat) : Framer := .holding [] (capacity limit)

/-- Reads one byte; a `newline` completes the line. -/
def step (limit : Nat) (f : Framer) (b : UInt8) : Option Frame × Framer :=
  match f with
  | .holding held room =>
    if b = newline then (some (.line (b :: held).reverse), fresh limit)
    else if room ≤ 1 then (none, .skipping (held.length + 1))
    else (none, .holding (b :: held) (room - 1))
  | .skipping n =>
    if b = newline then (some (.oversized (n + 1)), fresh limit) else (none, .skipping (n + 1))

/-- Reads further bytes, with the `frames` completed so far newest first. -/
def feedFrom (limit : Nat) (frames : List Frame) (f : Framer) : Bytes → List Frame × Framer
  | [] => (frames.reverse, f)
  | b :: bs =>
    match step limit f b with
    | (some frame, f) => feedFrom limit (frame :: frames) f bs
    | (none, f) => feedFrom limit frames f bs

/-- Reads further bytes and gives the frames that they complete. -/
def feed (limit : Nat) (f : Framer) (bytes : Bytes) : List Frame × Framer :=
  feedFrom limit [] f bytes

/-- What the end of the stream makes of the line that it cuts off. -/
def finish : Framer → Option Frame
  | .holding [] _ => none
  | .holding held _ => some (.line held.reverse)
  | .skipping n => some (.oversized n)

end Framer

/-- The lines of a whole stream, each with its newline; a last line may lack it. -/
def segmentsFrom (read : Bytes) : Bytes → List Bytes
  | [] => if read.isEmpty then [] else [read.reverse]
  | b :: bs =>
    if b = newline then (b :: read).reverse :: segmentsFrom [] bs else segmentsFrom (b :: read) bs

def segments (stream : Bytes) : List Bytes := segmentsFrom [] stream

end VoiceTurn.Line
