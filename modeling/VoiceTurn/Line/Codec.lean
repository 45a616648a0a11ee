import VoiceTurn.Bus.Failure
import VoiceTurn.Text.Utf8
import VoiceTurn.Text.Lossy
import VoiceTurn.Topic.Filter

/-!
# The line format

One message per line: the topic, and after a space the payload, which may be empty. `write` lays a
message out as a line with its terminator; `read` takes a line apart again. Only the topic has to be
text.
-/

namespace VoiceTurn.Line

def newline : UInt8 := 0x0A

/-- Whether a byte is a carriage return or a newline. -/
def isBreak (b : UInt8) : Bool := b = 0x0A || b = 0x0D

/-- The byte between topic and payload. -/
def space : UInt8 := 0x20

/-- Whether a byte is a blank of a line that holds nothing else. -/
def isPadding (b : UInt8) : Bool :=
  b = 0x20 || b = 0x09 || b = 0x0A || b = 0x0C || b = 0x0D

/-- A line without the bytes at its end that are `isBreak`. -/
def trimBreaks (line : Bytes) : Bytes := (line.reverse.dropWhile isBreak).reverse

/-- The text of a topic's bytes, if it `isPublishable`. -/
def readTopic (b : Bytes) : Except Bus.Failure String :=
  match Utf8.decode? b with
  | some t => if Topic.isPublishable t then .ok t else .error (.invalidTopic t)
  | none => .error (.invalidTopic (Utf8.lossy b))

/-- Takes a line apart at its first `space`. A line of blanks holds no message. -/
def read (line : Bytes) : Except Bus.Failure (Option (String × Bytes)) :=
  let line := trimBreaks line
  if line.all isPadding then .ok none
  else match readTopic (line.takeWhile (· ≠ space)) with
    | .ok t => .ok (some (t, (line.dropWhile (· ≠ space)).drop 1))
    | .error f => .error f

/-- Lays a message out as a line; the payload must not hold a byte that `isBreak`. -/
def write (topic : String) (payload : Bytes) : Except Bus.Failure Bytes :=
  if !Topic.isPublishable topic then .error (.invalidTopic topic)
  else if payload.any isBreak then .error (.invalidPayload topic "payload contains a line break")
  else
    .ok (Utf8.encode topic ++ (if payload.isEmpty then [] else space :: payload) ++ [newline])

end VoiceTurn.Line
