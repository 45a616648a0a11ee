import VoiceTurn.Topic.Filter
import VoiceTurn.Pipeline.Service
import VoiceTurn.Pipeline.Cue

/-!
# The topic registry

The topic of every cue and of every command. A registry is a function on its thirteen slots: five
inbound ones, one for each cue, and eight outbound ones, one for each action that a service
accepts.
-/

namespace VoiceTurn.Topic

/-- A place in the registry. -/
inductive Slot where
  | wakeDetected
  | commandStopped
  | commandTimeout
  | textCaptured
  | intentRecognized
  | wakeStop
  | wakeStart
  | voiceCommandStart
  | voiceCommandStop
  | speechToTextStart
  | speechToTextStop
  | recognizeIntent
  | sayText
  deriving DecidableEq, Repr

namespace Slot

/-- Every slot, in the order in which a registry is checked. -/
def all : List Slot :=
  [.wakeDetected, .commandStopped, .commandTimeout, .textCaptured, .intentRecognized, .wakeStop,
    .wakeStart, .voiceCommandStart, .voiceCommandStop, .speechToTextStart, .speechToTextStop,
    .recognizeIntent, .sayText]

def name : Slot → String
  | wakeDetected => "wake_detected"
  | commandStopped => "command_stopped"
  | commandTimeout => "command_timeout"
  | textCaptured => "text_captured"
  | intentRecognized => "intent_recognized"
  | wakeStop => "wake_stop_listening"
  | wakeStart => "wake_start_listening"
  | voiceCommandStart => "voice_command_start_listening"
  | voiceCommandStop => "voice_command_stop_listening"
  | speechToTextStart => "speech_to_text_start_listening"
  | speechToTextStop => "speech_to_text_stop_listening"
  | recognizeIntent => "recognize_intent"
  | sayText => "say_text"

def ofName? (s : String) : Option Slot := all.find? (·.name = s)

/-- The path of a slot's topic below the root. -/
def path : Slot → String
  | wakeDetected => "wake-word/detected"
  | commandStopped => "voice-command/command-stopped"
  | commandTimeout => "voice-command/command-timeout"
  | textCaptured => "speech-to-text/text-captured"
  | intentRecognized => "intent-recognition/intent-recognized"
  | wakeStop => "wake-word/stop-listening"
  | wakeStart => "wake-word/start-listening"
  | voiceCommandStart => "voice-command/start-listening"
  | voiceCommandStop => "voice-command/stop-listening"
  | speechToTextStart => "speech-to-text/start-listening"
  | speechToTextStop => "speech-to-text/stop-listening"
  | recognizeIntent => "intent-recognition/recognize-intent"
  | sayText => "text-to-speech/say-text"

def ofCue : Cue → Slot
  | .wakeDetected => wakeDetected
  | .commandStopped => commandStopped
  | .commandTimedOut => commandTimeout
  | .textCaptured => textCaptured
  | .intentRecognized => intentRecognized

/-- The slot of an action of a service, when the service accepts the action. -/
def ofCommand? : Service → Action → Option Slot
  | .wakeWord, .startListening => some wakeStart
  | .wakeWord, .stopListening => some wakeStop
  | .voiceCommand, .startListening => some voiceCommandStart
  | .voiceCommand, .stopListening => some voiceCommandStop
  | .speechToText, .startListening => some speechToTextStart
  | .speechToText, .stopListening => some speechToTextStop
  | .intentRecognition, .recognize => some recognizeIntent
  | .textToSpeech, .say => some sayText
  | _, _ => none

theorem mem_all (s : Slot) : s ∈ all := by cases s <;> decide

end Slot

/-- The topic of every `Slot`. -/
structure Registry where
  topic : Slot → String

/-- Why a registry cannot be used. -/
inductive Defect where
  | empty
  | wildcard (topic : String)
  | blank (topic : String)
  | shared (topic : String)
  deriving DecidableEq, Repr

def Defect.message : Defect → String
  | empty => "topic is empty"
  | wildcard t => "'" ++ t ++ "' contains a wildcard"
  | blank t => "'" ++ t ++ "' contains whitespace"
  | shared t => "'" ++ t ++ "' is used by more than one inbound event"

namespace Registry

def stockRoot : String := "rhasspy"

/-- A root without the slashes at its end. -/
def trimRoot (root : String) : List Char :=
  (root.toList.reverse.dropWhile (· = '/')).reverse

/-- The stock topics below a root, after `trimRoot`. -/
def below (root : String) : Registry :=
  ⟨fun s => String.ofList (trimRoot root ++ '/' :: s.path.toList)⟩

def stock : Registry := below stockRoot

/-- The registry in which `slot` has another topic. -/
def replace (r : Registry) (slot : Slot) (topic : String) : Registry :=
  ⟨fun s => if s = slot then topic else r.topic s⟩

def ofCue (r : Registry) (c : Cue) : String := r.topic (Slot.ofCue c)

/-- The topic of `Slot.ofCommand?`, when the service accepts the action. -/
def ofCommand? (r : Registry) (s : Service) (a : Action) : Option String :=
  (Slot.ofCommand? s a).map r.topic

/-- What is wrong with a topic by itself. -/
def topicDefect? (t : String) : Option Defect :=
  if t.toList.isEmpty then some .empty
  else if t.toList.any isWildcard then some (.wildcard t)
  else if t.toList.any isBlank then some (.blank t)
  else none

/-- The first slot whose topic has a `topicDefect?`. -/
def firstUnusable? (r : Registry) : Option (String × Defect) :=
  Slot.all.findSome? fun s => (topicDefect? (r.topic s)).map (s.name, ·)

/-- The first of the cues whose topic is that of an `earlier` one or of one before it in the
list. -/
def firstShared? (r : Registry) (earlier : List Cue) : List Cue → Option (String × Defect)
  | [] => none
  | c :: cs =>
    if earlier.any fun d => r.ofCue d = r.ofCue c then some (c.name, .shared (r.ofCue c))
    else firstShared? r (earlier ++ [c]) cs

/-- The first defect of a registry and the name that is blamed: `firstUnusable?`, and then
`firstShared?`. -/
def defect? (r : Registry) : Option (String × Defect) :=
  match r.firstUnusable? with
  | some d => some d
  | none => r.firstShared? [] Cue.all

end Registry

end VoiceTurn.Topic
