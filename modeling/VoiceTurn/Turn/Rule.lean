import VoiceTurn.Pipeline.Command
import VoiceTurn.Pipeline.Cue
import VoiceTurn.Turn.Phase

/-!
# The turn-taking protocol

One rule for every phase that a cue can end. A rule names the cues, the commands to send and the
next phase; the last one also ends the turn. Nothing else decides which service is started or
stopped, except the compensation that undoes an abandoned turn.
-/

namespace VoiceTurn

/-- Where the payload of a command comes from. -/
inductive PayloadSource where
  /-- The command has no payload. -/
  | empty
  /-- The payload of the event is passed on. -/
  | forwarded
  /-- The response to the event's payload. -/
  | response
  deriving DecidableEq, Repr

def PayloadSource.name : PayloadSource → String
  | empty => "empty"
  | forwarded => "forward_event"
  | response => "derived_response"

/-- A command whose payload depends on the event that triggers it. -/
structure Directive where
  target : Service
  action : Action
  source : PayloadSource := .empty
  deriving DecidableEq, Repr

/-- One rule of the protocol. -/
structure Rule where
  phase : Phase
  cues : List Cue
  directives : List Directive
  next : Phase
  /-- Whether the turn ends once the commands are sent. -/
  endsTurn : Bool := false
  deriving DecidableEq, Repr

namespace Rule

def accepts (r : Rule) (p : Phase) (c : Cue) : Bool := r.phase = p && r.cues.contains c

/-- The rules of the protocol, in the order of a turn. -/
def table : List Rule := [
  { phase := .idle, cues := [.wakeDetected], next := .listening,
    directives := [⟨.wakeWord, .stopListening, .empty⟩, ⟨.voiceCommand, .startListening, .empty⟩,
      ⟨.speechToText, .startListening, .empty⟩] },
  { phase := .listening, cues := [.commandStopped, .commandTimedOut], next := .transcribing,
    directives := [⟨.speechToText, .stopListening, .empty⟩, ⟨.wakeWord, .startListening, .empty⟩] },
  { phase := .transcribing, cues := [.textCaptured], next := .recognizing,
    directives := [⟨.intentRecognition, .recognize, .forwarded⟩] },
  { phase := .recognizing, cues := [.intentRecognized], next := .responding,
    directives := [⟨.textToSpeech, .say, .response⟩], endsTurn := true }]

/-- The rule of the `table` for a cue in a phase. -/
def for? (p : Phase) (c : Cue) : Option Rule := table.find? (·.accepts p c)

end Rule

/-- The phase of the first rule with the cue. -/
def Cue.expectedIn? (c : Cue) : Option Phase :=
  (Rule.table.find? (·.cues.contains c)).map Rule.phase

/-- The commands that bring the services back to where they are between turns. Services that have
stopped by themselves are left alone, and the wake word is turned on only where it is muted. -/
def Phase.compensation : Phase → List Command
  | .listening => [.stop .speechToText, .stop .voiceCommand, .start .wakeWord]
  | .transcribing => [.stop .speechToText]
  | .idle | .recognizing | .responding => []

end VoiceTurn
