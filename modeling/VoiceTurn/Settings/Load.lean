import VoiceTurn.Settings.Validation
import VoiceTurn.Settings.Yaml
import VoiceTurn.Text.Utf8

/-!
# Loading settings

Settings are gathered from a file of defaults, a file for the environment and environment variables,
each layer over the ones before it, and then read and checked.
-/

namespace VoiceTurn.Settings

inductive FileFormat where
  | json
  | yaml
  deriving DecidableEq, Repr

namespace FileFormat

/-- Every format, in the order in which files are looked for. -/
def all : List FileFormat := [.json, .yaml]

def ending : FileFormat → String
  | json => ".json"
  | yaml => ".yaml"

end FileFormat

structure SettingsFile where
  format : FileFormat
  contents : Bytes

namespace SettingsFile

/-- The entries of a file, which must hold a table. A file that is not UTF-8 counts as missing, and
has none. -/
def entries? (f : SettingsFile) : Option (List (String × Node)) :=
  match Utf8.decode? f.contents with
  | none => some []
  | some text => do
    let root ← match f.format with
      | .json => (Json.Value.read? text.toList).map Node.ofValue
      | .yaml => Yaml.read? text.toList
    match root with
    | .table es => some es
    | _ => none

end SettingsFile

/-- What the names of environment variables with settings begin with, after `lowercase`. -/
def variableStart : List Char := "voice_flow__".toList

/-- A name in which every two underscores from the left are a point. -/
def splitUnderscores : List Char → List Char
  | [] => []
  | '_' :: '_' :: cs => '.' :: splitUnderscores cs
  | c :: cs => c :: splitUnderscores cs

/-- The entry of an environment variable, if its name begins with `variableStart`. -/
def variableEntry? (v : String × String) : Option (String × Node) :=
  let name := (lowercase v.1).toList
  if variableStart.isPrefixOf name then
    some (String.ofList (splitUnderscores (name.drop variableStart.length)),
      Node.ofVariable v.2)
  else none

/-- The variables of an environment block, in which every `name=value` is followed by a zero byte.
What is not UTF-8 is left out. -/
def variablesOfBlock (block : Bytes) : List (String × String) :=
  (block.splitOn 0).filterMap fun entry => do
    let name ← Utf8.decode? (entry.takeWhile (· ≠ 0x3D))
    let value ← Utf8.decode? ((entry.dropWhile (· ≠ 0x3D)).drop 1)
    if name.isEmpty then none else some (name, value)

/-- Where settings are loaded from. -/
structure Layers where
  defaults : Option SettingsFile := none
  environment : Option SettingsFile := none
  assignments : List (String × String) := []

def fileEntries? : Option SettingsFile → Option (List (String × Node))
  | none => some []
  | some f => f.entries?

/-- The gathered settings of all layers: each is an `overlay` on those before it. Of the keys of a
file that have the same `lowercase` form, the one that comes last in the order of bytes counts, and
of such variables the last one; a hash map would keep whichever it yields last. -/
def gather? (l : Layers) : Option Node := do
  let defaults ← fileEntries? l.defaults
  let environment ← fileEntries? l.environment
  let assigned := l.assignments.filterMap variableEntry?
  some ((((Node.table []).overlay defaults).overlay environment).overlay assigned)

/-- Loads settings and checks them by `validate`. -/
def load (l : Layers) : Except SettingsFault Settings :=
  match (gather? l).bind (read? Node.source) with
  | none => .error .unreadable
  | some s =>
    match s.validate with
    | .ok () => .ok s
    | .error f => .error f

end VoiceTurn.Settings
