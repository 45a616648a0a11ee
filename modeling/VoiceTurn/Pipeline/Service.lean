/-!
# Services

The services of the pipeline and what a command can ask of them.
-/

namespace VoiceTurn

/-- A service of the pipeline. -/
inductive Service where
  | wakeWord
  | voiceCommand
  | speechToText
  | intentRecognition
  | textToSpeech
  deriving DecidableEq, Repr

namespace Service

def all : List Service :=
  [.wakeWord, .voiceCommand, .speechToText, .intentRecognition, .textToSpeech]

/-- The name of a service as topics spell it. -/
def name : Service → String
  | wakeWord => "wake-word"
  | voiceCommand => "voice-command"
  | speechToText => "speech-to-text"
  | intentRecognition => "intent-recognition"
  | textToSpeech => "text-to-speech"

def ofName? (s : String) : Option Service := all.find? (·.name = s)

end Service

/-- What a command asks of a service. -/
inductive Action where
  | startListening
  | stopListening
  | recognize
  | say
  deriving DecidableEq, Repr

namespace Action

def all : List Action := [.startListening, .stopListening, .recognize, .say]

def name : Action → String
  | startListening => "start_listening"
  | stopListening => "stop_listening"
  | recognize => "recognize"
  | say => "say"

def ofName? (s : String) : Option Action := all.find? (·.name = s)

end Action

end VoiceTurn
