import VoiceTurn.Json.Decode
import VoiceTurn.Settings.Basic

/-!
# Reading settings

Settings are read in the same way from any kind of source that can say what its nodes are worth as
a record, a number, a text and so on. A setting that the source does not mention has its default.
-/

namespace VoiceTurn

/-- How nodes of a type are understood. -/
structure Source (τ : Type) where
  /-- The fields of a record, by their names in order. -/
  fields? : List String → τ → Option (List (Option τ))
  word? : Nat → τ → Option Nat
  flag? : τ → Option Bool
  text? : τ → Option String
  /-- One of several choices, which have names. -/
  choice? : {α : Type} → List α → (α → String) → τ → Option α
  dict? : τ → Option (Dict String)

namespace Source

variable {τ : Type}

def word64? (s : Source τ) (t : τ) : Option UInt64 := (s.word? UInt64.size t).map UInt64.ofNat

def word32? (s : Source τ) (t : τ) : Option UInt32 := (s.word? UInt32.size t).map UInt32.ofNat

def qos? (s : Source τ) : τ → Option Bus.Qos := s.choice? Bus.Qos.all Bus.Qos.name

def secondWake? (s : Source τ) : τ → Option SecondWake := s.choice? SecondWake.all SecondWake.name

/-- A field of a record: its `default` when it is missing. -/
def field? {α : Type} (default : α) (reader : τ → Option α) : Option τ → Option α
  | none => some default
  | some t => reader t

/-- Documents as they are written, understood strictly. -/
def document : Source Json.Tree where
  fields? := Json.Tree.fields?
  word? := Json.Tree.natBelow?
  flag? := Json.Tree.flag?
  text? := Json.Tree.text?
  choice? := Json.Tree.choice?
  dict? := Json.Tree.dict?

end Source

namespace Settings

/-! ## The names of fields -/

def turnFields : List String :=
  ["stall_timeout_ms", "second_wake_policy", "event_queue_capacity", "event_channel_capacity"]

def topicFields : List String := ["prefix", "overrides"]

def retryFields : List String := ["max_attempts", "initial_backoff_ms", "max_backoff_ms"]

def busFields : List String := ["inbound_qos", "outbound_qos", "max_line_bytes", "retry"]

def responseFields : List String := ["templates", "default_template", "fallback"]

def tapFields : List String := ["enabled", "capacity"]

def logFields : List String := ["log_level", "log_json"]

def sections : List String :=
  ["orchestrator", "topics", "bus", "responses", "tap", "observability"]

/-! ## Sections -/

variable {τ : Type} (s : Source τ)

open Source (field?)

def readTurn? (t : τ) : Option TurnSettings := do
  let d : TurnSettings := {}
  match ← s.fields? turnFields t with
  | [timeout, wake, queue, feed] =>
    let stallTimeout ← field? d.stallTimeout s.word64? timeout
    let secondWake ← field? d.secondWake s.secondWake? wake
    let queueCapacity ← field? d.queueCapacity s.word64? queue
    let feedCapacity ← field? d.feedCapacity s.word64? feed
    some { stallTimeout, secondWake, queueCapacity, feedCapacity }
  | _ => none

def readTopics? (t : τ) : Option TopicSettings := do
  let d : TopicSettings := {}
  match ← s.fields? topicFields t with
  | [root, overrides] =>
    let root ← field? d.root s.text? root
    let overrides ← field? d.overrides s.dict? overrides
    some { root, overrides }
  | _ => none

def readRetrySettings? (t : τ) : Option RetrySettings := do
  let d : RetrySettings := {}
  match ← s.fields? retryFields t with
  | [attempts, initial, longest] =>
    let attempts ← field? d.attempts s.word32? attempts
    let initialPause ← field? d.initialPause s.word64? initial
    let longestPause ← field? d.longestPause s.word64? longest
    some { attempts, initialPause, longestPause }
  | _ => none

def readBus? (t : τ) : Option BusSettings := do
  let d : BusSettings := {}
  match ← s.fields? busFields t with
  | [inbound, outbound, line, retry] =>
    let inboundQos ← field? d.inboundQos s.qos? inbound
    let outboundQos ← field? d.outboundQos s.qos? outbound
    let maxLine ← field? d.maxLine s.word64? line
    let retry ← field? d.retry (readRetrySettings? s) retry
    some { inboundQos, outboundQos, maxLine, retry }
  | _ => none

def readResponses? (t : τ) : Option Response.Phrases := do
  let d : Response.Phrases := {}
  match ← s.fields? responseFields t with
  | [templates, general, fallback] =>
    let templates ← field? d.templates s.dict? templates
    let general ← field? d.general s.text? general
    let fallback ← field? d.fallback s.text? fallback
    some { templates, general, fallback }
  | _ => none

def readTap? (t : τ) : Option TapSettings := do
  let d : TapSettings := {}
  match ← s.fields? tapFields t with
  | [enabled, capacity] =>
    let enabled ← field? d.enabled s.flag? enabled
    let capacity ← field? d.capacity s.word64? capacity
    some { enabled, capacity }
  | _ => none

def readLog? (t : τ) : Option LogSettings := do
  let d : LogSettings := {}
  match ← s.fields? logFields t with
  | [level, asJson] =>
    let level ← field? d.level s.text? level
    let asJson ← field? d.asJson s.flag? asJson
    some { level, asJson }
  | _ => none

/-- Reads all settings. -/
def read? (t : τ) : Option Settings := do
  let d : Settings := {}
  match ← s.fields? sections t with
  | [turn, topics, bus, responses, tap, log] =>
    let turn ← field? d.turn (readTurn? s) turn
    let topics ← field? d.topics (readTopics? s) topics
    let bus ← field? d.bus (readBus? s) bus
    let responses ← field? d.responses (readResponses? s) responses
    let tap ← field? d.tap (readTap? s) tap
    let log ← field? d.log (readLog? s) log
    some { turn, topics, bus, responses, tap, log }
  | _ => none

end Settings

end VoiceTurn
