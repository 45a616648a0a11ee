import VoiceTurn.Text.Utf8

/-!
# Cues and events

A cue is what a service can report about the progress of a turn. An event is one report of it,
with a payload that means nothing to the protocol.
-/

namespace VoiceTurn

/-- What a service reports. -/
inductive Cue where
  /-- The wake word was heard. -/
  | wakeDetected
  /-- The end of the spoken command was heard. -/
  | commandStopped
  /-- The end of the spoken command was not heard in time. -/
  | commandTimedOut
  /-- The spoken command was transcribed. -/
  | textCaptured
  /-- The intent behind the transcription was recognized. -/
  | intentRecognized
  deriving DecidableEq, Repr

namespace Cue

def all : List Cue :=
  [.wakeDetected, .commandStopped, .commandTimedOut, .textCaptured, .intentRecognized]

def name : Cue → String
  | wakeDetected => "wake_detected"
  | commandStopped => "command_stopped"
  | commandTimedOut => "command_timed_out"
  | textCaptured => "text_captured"
  | intentRecognized => "intent_recognized"

def ofName? (s : String) : Option Cue := all.find? (·.name = s)

theorem mem_all (c : Cue) : c ∈ all := by cases c <;> decide

end Cue

structure Event where
  cue : Cue
  payload : Bytes := []
  deriving DecidableEq, Repr

end VoiceTurn
