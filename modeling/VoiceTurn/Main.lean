import VoiceTurn.Conductor.Host
import VoiceTurn.Settings.Load

/-!
# The program

Runs a host over the standard streams until the input ends. Settings come from the files under
`config/` and from the environment; when they cannot be used, the program says so and goes on with
the stock settings. Standard output carries nothing but lines of the protocol.
-/

namespace VoiceTurn.Program

open Conductor (World Host)
open Settings (SettingsFile FileFormat)

/-- How many steps `World.settle` may take between two looks at the streams. -/
def stepLimit : Nat := 1000000

/-- How many bytes are read at once. -/
def chunkSize : Nat := 65536

/-- How long the program rests when there is nothing to do, in milliseconds. -/
def rest : UInt32 := 2

/-- The bytes of a file, if it can be read. -/
def contents? (path : String) : IO (Option Bytes) := do
  try
    let bytes ← IO.FS.readBinFile path
    return some bytes.toList
  catch _ => return none

/-- The file of settings of the given name, in the first `FileFormat` in which there is one. -/
def settingsFile? (name : String) : IO (Option SettingsFile) :=
  FileFormat.all.findSomeM? fun format => do
    return (← contents? ("config/" ++ name ++ format.ending)).map (⟨format, ·⟩)

def settings : IO Settings := do
  let name? ← IO.getEnv "VOICE_FLOW_ENV"
  let environment ← match name? with
    | some name => settingsFile? name
    | none => pure none
  let block := (← contents? "/proc/self/environ").getD []
  match Settings.load ⟨← settingsFile? "default", environment, Settings.variablesOfBlock block⟩ with
  | .ok s =>
    IO.eprintln ("Loaded configuration (env: " ++ name?.getD "default" ++ ")")
    return s
  | .error f =>
    IO.eprintln ("Warning: Failed to load config: " ++ f.message ++ ". Using defaults.")
    return .stock

/-- Reads up to the end of a line, up to the end of the input, or until there is no more room. -/
def readLine (input : IO.FS.Stream) : (room : Nat) → ByteArray → IO ByteArray
  | 0, line => return line
  | room + 1, line => do
    let next ← input.read 1
    if next.isEmpty then return line
    else if next.data.contains 0x0A then return line ++ next
    else readLine input room (line ++ next)

def beginReading (input : IO.FS.Stream) : IO (Task (Except IO.Error ByteArray)) :=
  IO.asTask (readLine input chunkSize .empty) .dedicated

/-- Hands over what `readLine` has read; no bytes at all are the end of the input. -/
def arrive (h : Host) : Except IO.Error ByteArray → Host
  | .ok line => h.mapLink fun l => if line.isEmpty then l.endInput else l.arrive line.toList
  | .error _ => h.mapLink (·.breakInput)

/-- Writes what the host has put out and forgets it. -/
def emit (output : IO.FS.Stream) (h : Host) : IO Host := do
  match h.link? with
  | some l =>
    unless l.output.isEmpty do
      output.write ⟨l.output.toArray⟩
      output.flush
    return h.mapLink ({ · with output := [] })
  | none => return h

/-- Keeps a host at work until it has a `result?`. -/
partial def keep (input output : IO.FS.Stream) (startedAt : Nat)
    (reading : Task (Except IO.Error ByteArray)) (h : Host) :
    IO (Except Conductor.HostFault Conductor.Summary) := do
  let elapsed := (← IO.monoMsNow) - startedAt
  let h ← emit output (World.advance (elapsed - World.now h) stepLimit h)
  match h.result? with
  | some result => return result
  | none =>
    if ← IO.hasFinished reading then
      let h ← emit output (World.settle stepLimit (arrive h reading.get))
      let reading ← if h.isInputClosed then pure reading else beginReading input
      keep input output startedAt reading h
    else
      IO.sleep rest
      keep input output startedAt reading h

/-- Runs the program; the exit code is zero unless the host ended with a fault. -/
def run : IO UInt32 := do
  let input ← IO.getStdin
  let result ← match Host.start (← settings) {} with
    | .error f => pure (.error f)
    | .ok h => keep input (← IO.getStdout) (← IO.monoMsNow) (← beginReading input) h
  match result with
  | .ok _ => return 0
  | .error f =>
    IO.eprintln ("Error: " ++ f.message)
    return 1

end VoiceTurn.Program

def main : IO UInt32 := VoiceTurn.Program.run
