import VoiceTurn.Bus.Subscriptions

/-!
# The local bus

A bus within the process. It hands a message to its receivers at once, remembers the latest
messages, and can be told to refuse a number of messages as if the way to the receivers had
failed.
-/

namespace VoiceTurn.Bus

/-- A bus within the process. -/
structure Local (ρ : Type) where
  subscriptions : Subscriptions ρ := {}
  /-- The latest messages, oldest first, at most `capacity` of them. -/
  log : List Message := []
  capacity : Nat := 1024
  /-- How many messages are still to be refused, by order of `refuseNext`. -/
  refusals : Nat := 0
  isClosed : Bool := false

namespace Local

variable {ρ : Type}

/-- Adds a message to the `log`; the oldest one gives way when the log is full. -/
def record (b : Local ρ) (m : Message) : Local ρ :=
  if b.capacity = 0 then b
  else
    let kept := if b.log.length = b.capacity then b.log.drop 1 else b.log
    { b with log := kept ++ [m] }

/-- Takes a message, or says why not. A closed bus and an unusable topic come before an ordered
refusal, which they do not use up. -/
def publish (b : Local ρ) (m : Message) : Except Failure (List (Delivery ρ)) × Local ρ :=
  if b.isClosed then (.error .closed, b)
  else if !Topic.isPublishable m.topic then (.error (.invalidTopic m.topic), b)
  else match b.refusals with
    | n + 1 => (.error (.publish m.topic "injected failure"), { b with refusals := n })
    | 0 => (.ok (b.subscriptions.deliveries m), b.record m)

def subscribe (b : Local ρ) (filter : String) (qos : Qos) (receiver : ρ) :
    Except Failure Nat × Local ρ :=
  if b.isClosed then (.error .closed, b)
  else match b.subscriptions.add filter qos receiver with
    | .ok (id, t) => (.ok id, { b with subscriptions := t })
    | .error f => (.error f, b)

/-- Removes the subscription numbered `id`, if there is one. -/
def unsubscribe (b : Local ρ) (id : Nat) : Local ρ :=
  { b with subscriptions := b.subscriptions.remove id }

/-- Orders the refusal of the next `count` messages. -/
def refuseNext (b : Local ρ) (count : Nat) : Local ρ := { b with refusals := count }

def close (b : Local ρ) : Local ρ := { b with isClosed := true }

def name : String := "in-memory"

end Local

end VoiceTurn.Bus
