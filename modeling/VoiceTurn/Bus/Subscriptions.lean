import VoiceTurn.Bus.Failure
import VoiceTurn.Bus.Message
import VoiceTurn.Topic.Filter

/-!
# Subscriptions

The table of receivers that the buses share. Numbers are handed out in ascending order and never
again; a message goes to the receivers that match at the moment of its dispatch, in the order in
which they subscribed. Receivers are of any type: what they do with a message is not the table's
business.
-/

namespace VoiceTurn.Bus

/-- A receiver with the filter that it subscribed to. -/
structure Subscription (ρ : Type) where
  id : Nat
  filter : String
  qos : Qos
  receiver : ρ

/-- The subscriptions in force, oldest first, and how many have ever been `issued`. -/
structure Subscriptions (ρ : Type) where
  entries : List (Subscription ρ) := []
  issued : Nat := 0

/-- A message on its way to a receiver. -/
structure Delivery (ρ : Type) where
  receiver : ρ
  message : Message

namespace Subscriptions

variable {ρ : Type}

/-- Adds a receiver under the next number after `issued`. -/
def add (t : Subscriptions ρ) (filter : String) (qos : Qos) (receiver : ρ) :
    Except Failure (Nat × Subscriptions ρ) :=
  if Topic.isFilter filter then
    let id := t.issued + 1
    .ok (id, ⟨t.entries ++ [⟨id, filter, qos, receiver⟩], id⟩)
  else .error (.invalidTopic filter)

/-- Removes the subscription numbered `id`, if there is one. -/
def remove (t : Subscriptions ρ) (id : Nat) : Subscriptions ρ :=
  { t with entries := t.entries.filter (·.id ≠ id) }

/-- The deliveries of a message: one to every receiver whose filter `isMatch`, with the `weaker`
guarantee. -/
def deliveries (t : Subscriptions ρ) (m : Message) : List (Delivery ρ) :=
  (t.entries.filter fun s => Topic.isMatch s.filter m.topic).map fun s =>
    ⟨s.receiver, { m with qos := s.qos.weaker m.qos }⟩

def size (t : Subscriptions ρ) : Nat := t.entries.length

end Subscriptions

/-- A subscription as log lines name it. -/
def displayId (id : Nat) : String := "sub-" ++ toString id

end VoiceTurn.Bus
