import VoiceTurn.Settings.Document

/-!
# Valid settings

The registry that the topic settings describe, and the checks that settings must pass before they
are used. The first check that fails is reported, with the path of the setting to blame.
-/

namespace VoiceTurn

/-- Why settings cannot be used. -/
inductive SettingsFault where
  /-- The setting at a path has an unusable value. -/
  | invalidValue (path reason : String)
  /-- An override names no slot of the registry. -/
  | unknownTopic (name : String)
  /-- The sources do not describe settings. -/
  | unreadable
  deriving DecidableEq, Repr

def SettingsFault.message : SettingsFault → String
  | invalidValue path reason => "Invalid value for " ++ path ++ ": " ++ reason
  | unknownTopic name => "Unknown topic override: " ++ name
  | unreadable => "Failed to parse configuration"

namespace TopicSettings

open Json (Value)

/-- Puts a topic in the place of a member of a registry that is written as an `object`. -/
def overrideMember (members : List (String × Value)) (override : String × String) :
    Except SettingsFault (List (String × Value)) :=
  if (members.lookup override.1).isSome then
    .ok (Dict.insertEntry override.1 (.string override.2) members)
  else .error (.unknownTopic override.1)

/-- The stock registry below `root` with the overrides in place; every override must name a `Slot`.
The overrides are put into the document of the registry, which is then read back. -/
def registry (s : TopicSettings) : Except SettingsFault Topic.Registry :=
  let base := Topic.Registry.below s.root
  if s.overrides.entries.isEmpty then .ok base
  else
    match base.toValue with
    | .object members => do
      let members ← s.overrides.entries.foldlM overrideMember members
      match Topic.Registry.ofValue? (.object members) with
      | some r => .ok r
      | none => .error .unreadable
    | _ => .error .unreadable

end TopicSettings

namespace Settings

/-- Blames a setting that is zero. -/
def positive (path : String) (value : UInt64) : Except SettingsFault Unit :=
  if value = 0 then .error (.invalidValue path "must be greater than zero") else .ok ()

def checkTurn (s : TurnSettings) : Except SettingsFault Unit := do
  positive "orchestrator.stall_timeout_ms" s.stallTimeout
  positive "orchestrator.event_queue_capacity" s.queueCapacity
  positive "orchestrator.event_channel_capacity" s.feedCapacity

def checkBus (s : BusSettings) : Except SettingsFault Unit := do
  positive "bus.max_line_bytes" s.maxLine
  if s.retry.attempts = 0 then
    throw (.invalidValue "bus.retry.max_attempts" "must be at least 1")
  if s.retry.initialPause > s.retry.longestPause then
    throw (.invalidValue "bus.retry.initial_backoff_ms"
      ("initial backoff (" ++ toString s.retry.initialPause.toNat ++ "ms) exceeds max backoff (" ++
        toString s.retry.longestPause.toNat ++ "ms)"))

/-- Checks the topics: `root` has to hold more than slashes, and the registry no `defect?`. -/
def checkTopics (s : TopicSettings) : Except SettingsFault Unit := do
  if s.root.toList.all (· = '/') then
    throw (.invalidValue "topics.prefix" "must not be empty")
  match (← s.registry).defect? with
  | some (name, defect) => throw (.invalidValue ("topics." ++ name) defect.message)
  | none => pure ()

def validate (s : Settings) : Except SettingsFault Unit := do
  checkTurn s.turn
  checkBus s.bus
  checkTopics s.topics
  positive "tap.capacity" s.tap.capacity

end Settings

end VoiceTurn
