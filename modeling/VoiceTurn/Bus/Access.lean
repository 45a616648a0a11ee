import VoiceTurn.Bus.Local
import VoiceTurn.Line.Link

/-!
# Access to a bus

An access is what the parts of a conductor hold of a bus: a bus within the process or a link, with
an order that some calls for subscribing or unsubscribing fail. Several subscriptions are made
together: either all of them, or none stays.
-/

namespace VoiceTurn.Bus

/-- A bus of either kind: a `Local` one or a `Link`. -/
inductive Carrier (ρ : Type) where
  | inProcess (b : Local ρ)
  | link (l : Line.Link ρ)

namespace Carrier

variable {ρ : Type}

def subscriptions : Carrier ρ → Subscriptions ρ
  | inProcess b => b.subscriptions
  | link l => l.subscriptions

/-- Takes a message; a bus that is `inProcess` hands it over at once. -/
def publish (c : Carrier ρ) (m : Message) : Except Failure (List (Delivery ρ)) × Carrier ρ :=
  match c with
  | .inProcess b =>
    let (result, b) := b.publish m
    (result, .inProcess b)
  | .link l =>
    let (result, l) := l.publish m
    (result.map fun _ => [], .link l)

def subscribe (c : Carrier ρ) (filter : String) (qos : Qos) (receiver : ρ) :
    Except Failure Nat × Carrier ρ :=
  match c with
  | .inProcess b =>
    let (result, b) := b.subscribe filter qos receiver
    (result, .inProcess b)
  | .link l =>
    let (result, l) := l.subscribe filter qos receiver
    (result, .link l)

/-- Removes the subscription numbered `id`, if there is one. -/
def unsubscribe (c : Carrier ρ) (id : Nat) : Carrier ρ :=
  match c with
  | .inProcess b => .inProcess (b.unsubscribe id)
  | .link l => .link (l.unsubscribe id)

/-- Reads what has arrived on a link, if `Link.canRead`. -/
def readArrived? : Carrier ρ → Option (List (Delivery ρ) × Carrier ρ)
  | inProcess _ => none
  | link l =>
    if l.canRead then
      let (deliveries, l) := l.readArrived
      some (deliveries, .link l)
    else none

end Carrier

/-- An order that the calls of the given numbers fail; calls are counted from one, and no call has
the number zero. -/
structure Drill where
  failingSubscribe : Nat := 0
  failingUnsubscribe : Nat := 0
  subscribes : Nat := 0
  unsubscribes : Nat := 0

/-- What is asked of a bus for one subscription. -/
structure Request (ρ : Type) where
  filter : String
  qos : Qos
  receiver : ρ

/-- A `Carrier` with a `Drill`. -/
structure Access (ρ : Type) where
  carrier : Carrier ρ
  drill : Drill := {}

namespace Access

variable {ρ : Type}

def subscribe (a : Access ρ) (r : Request ρ) : Except Failure Nat × Access ρ :=
  let call := a.drill.subscribes + 1
  let drill := { a.drill with subscribes := call }
  if call = a.drill.failingSubscribe then
    (.error (.subscribe r.filter "injected"), { a with drill })
  else
    let (result, carrier) := a.carrier.subscribe r.filter r.qos r.receiver
    (result, { carrier, drill })

def unsubscribe (a : Access ρ) (id : Nat) : Except Failure Unit × Access ρ :=
  let call := a.drill.unsubscribes + 1
  let drill := { a.drill with unsubscribes := call }
  if call = a.drill.failingUnsubscribe then (.error (.stream "injected"), { a with drill })
  else (.ok (), { carrier := a.carrier.unsubscribe id, drill })

/-- Repeated `unsubscribe`, whether or not each removal succeeds. -/
def abandon (a : Access ρ) (ids : List Nat) : Access ρ :=
  ids.foldl (fun a id => (a.unsubscribe id).2) a

/-- Repeated `unsubscribe`, up to the first removal that fails. -/
def unsubscribeAll (a : Access ρ) : List Nat → Except Failure Unit × Access ρ
  | [] => (.ok (), a)
  | id :: ids =>
    match a.unsubscribe id with
    | (.ok (), a) => unsubscribeAll a ids
    | (.error f, a) => (.error f, a)

/-- Makes further subscriptions after those already `made`; at the first failure all of them are
`abandon`ed. -/
def subscribeAll (a : Access ρ) (made : List Nat) :
    List (Request ρ) → Except Failure (List Nat) × Access ρ
  | [] => (.ok made, a)
  | r :: rs =>
    match a.subscribe r with
    | (.ok id, a) => subscribeAll a (made ++ [id]) rs
    | (.error f, a) => (.error f, a.abandon made)

end Access

end VoiceTurn.Bus
