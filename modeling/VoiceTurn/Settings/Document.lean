import VoiceTurn.Json.Value
import VoiceTurn.Settings.Source

/-!
# Settings as documents

How settings and registries are written as JSON documents with every field, and how they are read
back from the text of a document.
-/

namespace VoiceTurn

open Json (Tree Value)

namespace Settings

/-- Reads settings from the text of a document. -/
def ofText? (text : List Char) : Option Settings := do read? .document (← Tree.read? text)

def record (names : List String) (values : List Value) : Value := .ofMembers (names.zip values)

def dictValue (d : Dict String) : Value := .object (d.entries.map fun (k, v) => (k, .string v))

def turnValue (s : TurnSettings) : Value :=
  record turnFields [.ofNat s.stallTimeout.toNat, .string s.secondWake.name,
    .ofNat s.queueCapacity.toNat, .ofNat s.feedCapacity.toNat]

def topicsValue (s : TopicSettings) : Value :=
  record topicFields [.string s.root, dictValue s.overrides]

def retryValue (s : RetrySettings) : Value :=
  record retryFields
    [.ofNat s.attempts.toNat, .ofNat s.initialPause.toNat, .ofNat s.longestPause.toNat]

def busValue (s : BusSettings) : Value :=
  record busFields [.string s.inboundQos.name, .string s.outboundQos.name,
    .ofNat s.maxLine.toNat, retryValue s.retry]

def responsesValue (s : Response.Phrases) : Value :=
  record responseFields [dictValue s.templates, .string s.general, .string s.fallback]

def tapValue (s : TapSettings) : Value :=
  record tapFields [.bool s.enabled, .ofNat s.capacity.toNat]

def logValue (s : LogSettings) : Value := record logFields [.string s.level, .bool s.asJson]

/-- All settings as a document. -/
def toValue (s : Settings) : Value :=
  record sections [turnValue s.turn, topicsValue s.topics, busValue s.bus,
    responsesValue s.responses, tapValue s.tap, logValue s.log]

end Settings

namespace Topic.Registry

/-- Reads a registry from its fields; a missing field has its topic of `Registry.stock`. -/
def ofFields? {τ : Type} (text? : τ → Option String) (fields : List (Option τ)) :
    Option Registry := do
  let known ← (Slot.all.zip fields).mapM fun (slot, t) =>
    (Source.field? (stock.topic slot) text? t).map (slot, ·)
  some (known.foldl (fun r (slot, topic) => r.replace slot topic) stock)

def ofTree? (t : Tree) : Option Registry := do
  ofFields? Tree.text? (← t.fields? (Slot.all.map Slot.name))

def ofValue? (v : Value) : Option Registry := do
  ofFields? Value.text? (← v.fields? (Slot.all.map Slot.name))

def ofText? (text : List Char) : Option Registry := do ofTree? (← Tree.read? text)

def toValue (r : Registry) : Value :=
  .ofMembers (Slot.all.map fun s => (s.name, .string (r.topic s)))

end Topic.Registry

end VoiceTurn
