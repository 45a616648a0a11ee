import VoiceTurn.Pipeline.Service
import VoiceTurn.Text.Utf8

/-!
# Commands

What the conductor of a turn sends to the services: an action for one of them, with a payload that
is empty for starting and stopping.
-/

namespace VoiceTurn

/-- A directive to a service; nobody answers it. -/
structure Command where
  target : Service
  action : Action
  payload : Bytes := []
  deriving DecidableEq, Repr

namespace Command

def start (s : Service) : Command := ⟨s, .startListening, []⟩

def stop (s : Service) : Command := ⟨s, .stopListening, []⟩

/-- A command as log lines name it: the action, and the service in parentheses. -/
def display (c : Command) : String := c.action.name ++ "(" ++ c.target.name ++ ")"

end Command

end VoiceTurn
