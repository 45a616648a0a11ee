import VoiceTurn.Text.Blank

/-!
# Topics and filters

Topics are levels separated by slashes. A filter is a topic in which `+` stands for any one level
and a final `#` for any number of levels. The functions here work on whole texts; `levels` is the
view in which their meaning is stated.
-/

namespace VoiceTurn.Topic

/-- The levels of the remaining characters, of which `read` belong to the first one, newest
first. -/
def levelsFrom (read : List Char) : List Char → List (List Char)
  | [] => [read.reverse]
  | c :: cs => if c = '/' then read.reverse :: levelsFrom [] cs else levelsFrom (c :: read) cs

/-- The levels of a topic or filter; there is always at least one. -/
def levels (s : String) : List (List Char) := levelsFrom [] s.toList

/-- Whether a character is one of the two wildcards. -/
def isWildcard (c : Char) : Bool := c = '+' || c = '#'

/-- Whether a text names one topic: it is not empty, and no character `isWildcard` or `isBlank`. -/
def isPublishable (s : String) : Bool :=
  !s.toList.isEmpty && s.toList.all fun c => !isWildcard c && !isBlank c

/-- Whether every wildcard is a level of its own, and `#` the last one. -/
def wildcardsFit : List (List Char) → Bool
  | [] => true
  | level :: rest =>
    (if level = ['#'] then rest.isEmpty
      else level = ['+'] || !level.any isWildcard) && wildcardsFit rest

/-- Whether a text can be subscribed to: it is not empty and without blanks, and `wildcardsFit`. -/
def isFilter (s : String) : Bool :=
  !s.toList.isEmpty && !s.toList.any isBlank && wildcardsFit (levels s)

def levelsMatch : List (List Char) → List (List Char) → Bool
  | [], [] => true
  | [], _ :: _ => false
  | f :: fs, [] => f = ['#'] && fs.isEmpty
  | f :: fs, t :: ts =>
    if f = ['#'] then fs.isEmpty
    else if f = ['+'] ∨ f = t then levelsMatch fs ts
    else false

/-- Whether the `levels` of a filter match those of a topic. Neither of them needs to be
well-formed. -/
def isMatch (filter topic : String) : Bool := levelsMatch (levels filter) (levels topic)

end VoiceTurn.Topic
