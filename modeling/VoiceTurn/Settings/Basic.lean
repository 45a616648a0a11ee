import VoiceTurn.Bus.Message
import VoiceTurn.Bus.Retry
import VoiceTurn.Response.Composer
import VoiceTurn.Topic.Registry
import VoiceTurn.Turn.Machine

/-!
# Settings

Everything that can be configured, with its defaults. Durations are in milliseconds.
-/

namespace VoiceTurn

/-- How turns are conducted. -/
structure TurnSettings where
  /-- After how long without progress a turn is abandoned. -/
  stallTimeout : UInt64 := 30000
  secondWake : SecondWake := .ignore
  /-- How many events can wait to be handled. -/
  queueCapacity : UInt64 := 256
  /-- How many notices are kept for those who read them late. -/
  feedCapacity : UInt64 := 256
  deriving DecidableEq

/-- Where events and commands are found. -/
structure TopicSettings where
  /-- What all stock topics begin with. -/
  root : String := Topic.Registry.stockRoot
  /-- Topics that replace the stock ones, by `Slot.name`. -/
  overrides : Dict String := .empty

/-- How often and after which pauses a message is tried again. -/
structure RetrySettings where
  attempts : UInt32 := 3
  initialPause : UInt64 := 50
  longestPause : UInt64 := 1000
  deriving DecidableEq

/-- How messages are carried. -/
structure BusSettings where
  inboundQos : Bus.Qos := .atLeastOnce
  outboundQos : Bus.Qos := .atMostOnce
  /-- The longest line that is read. -/
  maxLine : UInt64 := 65536
  retry : RetrySettings := {}
  deriving DecidableEq

/-- Whether and how far texts and intents are recorded. -/
structure TapSettings where
  enabled : Bool := true
  /-- How many records can wait to be written. -/
  capacity : UInt64 := 64
  deriving DecidableEq

/-- What is logged. -/
structure LogSettings where
  level : String := "info"
  asJson : Bool := false
  deriving DecidableEq

structure Settings where
  turn : TurnSettings := {}
  topics : TopicSettings := {}
  bus : BusSettings := {}
  responses : Response.Phrases := {}
  tap : TapSettings := {}
  log : LogSettings := {}

def Settings.stock : Settings := {}

def RetrySettings.policy (s : RetrySettings) : Bus.Retry :=
  .ofAttempts s.attempts.toNat s.initialPause.toNat s.longestPause.toNat

def Settings.machine (s : Settings) : Machine where
  policy := s.turn.secondWake
  patience := s.turn.stallTimeout.toNat
  composer := .ofPhrases s.responses

end VoiceTurn
