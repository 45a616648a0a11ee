/-!
# Words

Names are words joined by hyphens or underscores. Their title form joins the words without
anything in between, each with a capital letter.
-/

namespace VoiceTurn.Words

/-- Writes the remaining characters of a name; a character after a separator becomes a capital. -/
def titleFrom (atStart : Bool) : List Char → List Char
  | [] => []
  | c :: cs =>
    if c = '-' ∨ c = '_' then titleFrom true cs
    else (if atStart then c.toUpper else c) :: titleFrom false cs

def title (name : String) : String := String.ofList (titleFrom true name.toList)

end VoiceTurn.Words
