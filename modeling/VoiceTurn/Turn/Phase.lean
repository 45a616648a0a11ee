/-!
# Phases

Where a turn stands. Between two turns the conductor is idle.
-/

namespace VoiceTurn

/-- A phase of the single turn that can be under way. -/
inductive Phase where
  /-- No turn is under way; the wake word is awaited. -/
  | idle
  /-- A command is being spoken; the wake word is muted. -/
  | listening
  /-- The transcription is awaited. -/
  | transcribing
  /-- The intent is awaited. -/
  | recognizing
  /-- The response is being handed to speech synthesis. -/
  | responding
  deriving DecidableEq, Repr

namespace Phase

def all : List Phase := [.idle, .listening, .transcribing, .recognizing, .responding]

def name : Phase → String
  | idle => "idle"
  | listening => "listening"
  | transcribing => "transcribing"
  | recognizing => "recognizing"
  | responding => "responding"

def ofName? (s : String) : Option Phase := all.find? (·.name = s)

/-- How far a turn has come. -/
def rank : Phase → Nat
  | idle => 0
  | listening => 1
  | transcribing => 2
  | recognizing => 3
  | responding => 4

def isActive (p : Phase) : Bool := p ≠ .idle

/-- Whether the wake-word service listens: it is muted while a command is being spoken. -/
def hearsWakeWord (p : Phase) : Bool := p ≠ .listening

end Phase

end VoiceTurn
