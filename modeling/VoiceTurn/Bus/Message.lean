import VoiceTurn.Text.Utf8

/-!
# Messages

A message is a payload under a topic, with the delivery guarantee that its sender or its receiver
asked for.
-/

namespace VoiceTurn.Bus

/-- A delivery guarantee. -/
inductive Qos where
  | atMostOnce
  | atLeastOnce
  | exactlyOnce
  deriving DecidableEq, Repr

namespace Qos

def all : List Qos := [.atMostOnce, .atLeastOnce, .exactlyOnce]

def name : Qos → String
  | atMostOnce => "at_most_once"
  | atLeastOnce => "at_least_once"
  | exactlyOnce => "exactly_once"

def level : Qos → Nat
  | atMostOnce => 0
  | atLeastOnce => 1
  | exactlyOnce => 2

def weaker (a b : Qos) : Qos := if b.level < a.level then b else a

theorem weaker_exactlyOnce (q : Qos) : q.weaker .exactlyOnce = q := by cases q <;> rfl

end Qos

/-- A message as it is handed to a receiver. -/
structure Message where
  topic : String
  payload : Bytes
  qos : Qos
  deriving DecidableEq, Repr

end VoiceTurn.Bus
