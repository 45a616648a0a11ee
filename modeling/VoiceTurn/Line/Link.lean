import VoiceTurn.Bus.Subscriptions
import VoiceTurn.Line.Framer

/-!
# Links

A link is a bus over a pair of byte streams. Messages are written as lines; lines that arrive are
handed to the receivers that match, with the guarantee that each receiver asked for. Lines that are
blank, malformed or too long are passed over. A link is closed once its input has ended.
-/

namespace VoiceTurn.Line

open Bus (Failure Message Delivery Subscriptions Qos)

inductive Ending where
  | complete
  | broken
  deriving DecidableEq, Repr

/-- The input stream: what has `arrived` and not been read, and its `ending` after that. Nothing
counts that comes behind the end. -/
structure Intake where
  arrived : Bytes := []
  ending : Option Ending := none

namespace Intake

def arrive (i : Intake) (bytes : Bytes) : Intake :=
  match i.ending with
  | none => { i with arrived := i.arrived ++ bytes }
  | some _ => i

def close (i : Intake) (e : Ending) : Intake :=
  match i.ending with
  | none => { i with ending := some e }
  | some _ => i

end Intake

/-- What the reader of the input is doing. -/
inductive Reader where
  | unstarted
  | reading (framer : Framer)
  | finished

/-- What the output stream does with a line. -/
inductive Writing where
  | accepts
  /-- It fails after the first `count` bytes. -/
  | breaks (count : Nat)
  /-- It takes the line and fails to pass it on. -/
  | keeps

/-- A bus over a pair of byte streams. -/
structure Link (ρ : Type) where
  subscriptions : Subscriptions ρ := {}
  /-- The longest line that is read. -/
  limit : Nat := 65536
  intake : Intake := {}
  reader : Reader := .unstarted
  /-- The bytes written so far. -/
  output : Bytes := []
  /-- How many of the next lines the output `breaks`. -/
  brokenWrites : Nat := 0
  /-- How many of the next lines the output `keeps`. -/
  brokenFlushes : Nat := 0

namespace Link

variable {ρ : Type}

/-- A bus that reads lines of at most `limit` bytes, and of at least one. -/
def withLimit (limit : Nat) : Link ρ := { limit := max limit 1 }

def isClosed (b : Link ρ) : Bool :=
  match b.reader with
  | .finished => true
  | _ => false

def name : String := "line"

def subscribe (b : Link ρ) (filter : String) (qos : Qos) (receiver : ρ) :
    Except Failure Nat × Link ρ :=
  if b.isClosed then (.error (.subscribe filter "input stream has ended"), b)
  else match b.subscriptions.add filter qos receiver with
    | .ok (id, t) => (.ok id, { b with subscriptions := t })
    | .error f => (.error f, b)

def unsubscribe (b : Link ρ) (id : Nat) : Link ρ :=
  { b with subscriptions := b.subscriptions.remove id }

/-! ## Output -/

/-- Writes a message to an output that does as `w` says. -/
def publishTo (b : Link ρ) (w : Writing) (m : Message) : Except Failure Unit × Link ρ :=
  match write m.topic m.payload with
  | .error f => (.error f, b)
  | .ok line =>
    match w with
    | .accepts => (.ok (), { b with output := b.output ++ line })
    | .breaks count =>
      (.error (.publish m.topic "injected write failure"),
        { b with output := b.output ++ line.take count })
    | .keeps =>
      (.error (.publish m.topic "injected flush failure"), { b with output := b.output ++ line })

/-- What the output will do with the next line: first it `breaks` lines, then it `keeps` them. -/
def nextWriting (b : Link ρ) : Writing :=
  if b.brokenWrites > 0 then .breaks 0
  else if b.brokenFlushes > 0 then .keeps
  else .accepts

/-- Counts what the output has done with a line. -/
def countWriting (b : Link ρ) : Writing → Link ρ
  | .accepts => b
  | .breaks _ => { b with brokenWrites := b.brokenWrites - 1 }
  | .keeps => { b with brokenFlushes := b.brokenFlushes - 1 }

/-- Writes a message to the output, which does as `nextWriting` says. -/
def publish (b : Link ρ) (m : Message) : Except Failure Unit × Link ρ :=
  match write m.topic m.payload with
  | .error f => (.error f, b)
  | .ok _ => (b.countWriting b.nextWriting).publishTo b.nextWriting m

/-! ## Input -/

/-- Starts the reader; it can be started once. -/
def start (b : Link ρ) : Bool × Link ρ :=
  match b.reader with
  | .unstarted => (true, { b with reader := .reading (.fresh b.limit) })
  | _ => (false, b)

def arrive (b : Link ρ) (bytes : Bytes) : Link ρ :=
  { b with intake := b.intake.arrive bytes }

/-- Ends the input after what has `arrived`. -/
def endInput (b : Link ρ) : Link ρ :=
  { b with intake := b.intake.close .complete }

/-- Breaks the input after what has `arrived`. -/
def breakInput (b : Link ρ) : Link ρ :=
  { b with intake := b.intake.close .broken }

/-- The message of a frame, if it holds one. Lines carry no guarantee, so the receivers' own
counts. -/
def messageOf? : Frame → Option Message
  | .line bytes =>
    match read bytes with
    | .ok (some (topic, payload)) => some ⟨topic, payload, .exactlyOnce⟩
    | _ => none
  | .oversized _ => none

/-- The deliveries of the messages that some frames hold, in order (`messageOf?`). -/
def deliveriesOf (b : Link ρ) (frames : List Frame) : List (Delivery ρ) :=
  (frames.filterMap messageOf?).flatMap b.subscriptions.deliveries

def canRead (b : Link ρ) : Bool :=
  match b.reader with
  | .reading _ =>
    Framer.capacity b.limit = 0 || !b.intake.arrived.isEmpty || b.intake.ending.isSome
  | _ => false

/-- Reads everything that has `arrived`. The end of the input completes the last line, a break drops
it; both close the bus. A reader that may hold no byte at all takes the input for ended. -/
def readArrived (b : Link ρ) : List (Delivery ρ) × Link ρ :=
  match b.reader with
  | .reading framer =>
    if Framer.capacity b.limit = 0 then ([], { b with reader := .finished })
    else
      let (frames, framer) := framer.feed b.limit b.intake.arrived
      let rest := { b.intake with arrived := [] }
      match b.intake.ending with
      | some .broken => (b.deliveriesOf frames, { b with intake := rest, reader := .finished })
      | some .complete =>
        (b.deliveriesOf (frames ++ framer.finish.toList),
          { b with intake := rest, reader := .finished })
      | none => (b.deliveriesOf frames, { b with intake := rest, reader := .reading framer })
  | _ => ([], b)

end Link

end VoiceTurn.Line
