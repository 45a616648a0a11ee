/-!
# Failures

Why a bus refuses a message or a subscription, and which refusals may pass when tried again.
-/

namespace VoiceTurn.Bus

/-- Why an operation on a bus failed. -/
inductive Failure where
  /-- The bus takes nothing any more. -/
  | closed
  /-- A message could not be handed over. -/
  | publish (topic reason : String)
  /-- A subscription could not be made. -/
  | subscribe (filter reason : String)
  /-- The text is no topic, or no filter. -/
  | invalidTopic (topic : String)
  /-- The payload cannot be carried. -/
  | invalidPayload (topic reason : String)
  /-- The stream below the bus failed. -/
  | stream (reason : String)
  deriving DecidableEq, Repr

namespace Failure

def message : Failure → String
  | closed => "Bus is closed"
  | publish topic reason => "Publish to " ++ topic ++ " failed: " ++ reason
  | subscribe filter reason => "Subscribe to " ++ filter ++ " failed: " ++ reason
  | invalidTopic topic => "Invalid topic: " ++ topic
  | invalidPayload topic reason => "Invalid payload for " ++ topic ++ ": " ++ reason
  | stream reason => "I/O error: " ++ reason

/-- Whether the same operation can succeed later. -/
def isPassing : Failure → Bool
  | publish .. | stream .. => true
  | _ => false

end Failure

end VoiceTurn.Bus
