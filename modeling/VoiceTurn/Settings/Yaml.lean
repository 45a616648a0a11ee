import VoiceTurn.Settings.Yaml.Tree

/-!
# Settings in YAML

Settings are written as tables and lists, in indented blocks or in braces and brackets, with plain
scalars, scalars in quotes, literal blocks, and comments. Tags say what kind of scalar follows them,
and a node that is named by an anchor can be used again. A text that is not well formed is not read.
-/

namespace VoiceTurn.Settings.Yaml

/-- Reads a text; an empty one is an empty table. -/
def read? (text : List Char) : Option Node := do tree? (← tokens? (normalize text))

end VoiceTurn.Settings.Yaml
