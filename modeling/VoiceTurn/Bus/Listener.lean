import VoiceTurn.Bus.Local
import VoiceTurn.Bus.Retry

/-!
# Listeners

Receivers that act on the bus themselves while a message is being handed to them. A listener
carries out its script during a limited number of deliveries and notes everything it receives and
does. The work that is left is a list of tasks, carried out from its front; `Room.work` shows that
it ends, because every run of a script uses up one of the listener's runs.
-/

namespace VoiceTurn.Bus

/-- An operation on a `Local` bus. A subscription says what its listener does in turn: a `label`, a
`script`, and how often the script is carried out. -/
inductive Act where
  | subscribe (filter : String) (qos : Qos) (label : String) (script : List Act) (runs : Nat)
  | unsubscribe (id : Nat)
  | publish (message : Message)
  | refuseNext (count : Nat)
  | close
  | readLog
  | readName
  deriving Inhabited

inductive Reply where
  | done
  | failed (f : Failure)
  | subscribed (id : Nat)
  | messages (log : List Message)
  | name (s : String)

/-- A receiver with its label and script. -/
structure Listener where
  label : String
  script : List Act
  /-- How often the `script` will still be carried out. -/
  runs : Nat

inductive Note where
  | received (label : String) (message : Message)
  | replied (label : String) (reply : Reply)

/-- Work that is left: a delivery to the listener of an index, an `Act` of a script, or the note of
its reply. -/
inductive Task where
  | deliver (listener : Nat) (message : Message)
  | perform (label : String) (act : Act)
  | note (label : String) (reply : Reply)

/-- A `Local` bus with the listeners that have ever subscribed to it, and their notes, newest
first. -/
structure Room where
  bus : Local Nat := {}
  listeners : List Listener := []
  notes : List Note := []

namespace Act

mutual

/-- A bound on the operations that an `Act` can lead to. -/
def weight : Act → Nat
  | subscribe _ _ _ script runs => 1 + runs * (1 + scriptWeight script)
  | _ => 1

def scriptWeight : List Act → Nat
  | [] => 0
  | a :: as => a.weight + scriptWeight as

end

end Act

namespace Listener

/-- A bound on the operations that the `runs` of a listener can lead to. -/
def weight (l : Listener) : Nat := l.runs * (1 + Act.scriptWeight l.script)

def weights : List Listener → Nat
  | [] => 0
  | l :: ls => l.weight + weights ls

theorem weights_append (ls ls' : List Listener) :
    weights (ls ++ ls') = weights ls + weights ls' := by
  induction ls with
  | nil => simp [weights]
  | cons l ls ih =>
    simp only [List.cons_append, weights, ih]
    omega

theorem weights_set {l : Listener} {ls : List Listener} {i : Nat} (h : ls[i]? = some l)
    (l' : Listener) : weights (ls.set i l') + l.weight = weights ls + l'.weight := by
  induction ls generalizing i with
  | nil => simp at h
  | cons a ls ih =>
    cases i with
    | zero =>
      obtain rfl : a = l := by simpa using h
      simp only [List.set_cons_zero, weights]
      omega
    | succ i =>
      have := ih (by simpa using h)
      simp only [List.set_cons_succ, weights]
      omega

end Listener

namespace Task

def weight : Task → Nat
  | perform _ act => act.weight
  | _ => 0

def weights : List Task → Nat
  | [] => 0
  | t :: ts => t.weight + weights ts

theorem weights_append (ts ts' : List Task) : weights (ts ++ ts') = weights ts + weights ts' := by
  induction ts with
  | nil => simp [weights]
  | cons t ts ih =>
    simp only [List.cons_append, weights, ih]
    omega

theorem weights_perform (label : String) (script : List Act) :
    weights (script.map (perform label)) = Act.scriptWeight script := by
  induction script with
  | nil => rfl
  | cons a as ih => simp only [List.map_cons, weights, weight, Act.scriptWeight, ih]

theorem weights_deliver (ds : List (Delivery Nat)) :
    weights (ds.map fun d => deliver d.receiver d.message) = 0 := by
  induction ds with
  | nil => rfl
  | cons d ds ih => simp only [List.map_cons, weights, weight, ih]

end Task

namespace Room

/-- Carries out an `Act` on the bus; a message is handed over by the deliveries that come with the
reply. -/
def perform (r : Room) : Act → Reply × List (Delivery Nat) × Room
  | .subscribe filter qos label script runs =>
    match r.bus.subscribe filter qos r.listeners.length with
    | (.ok id, bus) =>
      (.subscribed id, [], { r with bus, listeners := r.listeners ++ [⟨label, script, runs⟩] })
    | (.error f, bus) => (.failed f, [], { r with bus })
  | .unsubscribe id => (.done, [], { r with bus := r.bus.unsubscribe id })
  | .publish m =>
    match r.bus.publish m with
    | (.ok deliveries, bus) => (.done, deliveries, { r with bus })
    | (.error f, bus) => (.failed f, [], { r with bus })
  | .refuseNext count => (.done, [], { r with bus := r.bus.refuseNext count })
  | .close => (.done, [], { r with bus := r.bus.close })
  | .readLog => (.messages r.bus.log, [], r)
  | .readName => (.name Local.name, [], r)

/-- Hands a message to a listener: it notes the message and, when it has `runs` left, begins its
`script`. -/
def receive (r : Room) (index : Nat) (m : Message) : List Task × Room :=
  match r.listeners[index]? with
  | none => ([], r)
  | some l =>
    let noted := { r with notes := .received l.label m :: r.notes }
    match l.runs with
    | 0 => ([], noted)
    | runs + 1 =>
      (l.script.map (Task.perform l.label),
        { noted with listeners := r.listeners.set index { l with runs } })

/-- A bound on the operations that the listeners and the given tasks can still lead to. -/
def weight (r : Room) (tasks : List Task) : Nat :=
  Listener.weights r.listeners + Task.weights tasks

def step (r : Room) (t : Task) (tasks : List Task) : List Task × Room :=
  match t with
  | .deliver index m =>
    let (script, r) := r.receive index m
    (script ++ tasks, r)
  | .perform label act =>
    let (reply, deliveries, r) := r.perform act
    (deliveries.map (fun d => Task.deliver d.receiver d.message) ++
      .note label reply :: tasks, r)
  | .note label reply => (tasks, { r with notes := .replied label reply :: r.notes })

/-! ## The work ends -/

/-- A `perform` weighs more than what it leaves to be done. -/
theorem perform_weight_lt (r : Room) (label : String) (act : Act) (tasks : List Task) :
    (r.step (.perform label act) tasks).2.weight (r.step (.perform label act) tasks).1 <
      r.weight (.perform label act :: tasks) := by
  have hw : ∀ a : Act, 0 < a.weight := fun a => by
    cases a <;> (unfold Act.weight; omega)
  have := hw act
  cases act with
  | subscribe filter qos label' script runs =>
    simp only [step, perform]
    split
    · simp only [weight, Task.weights, Task.weight, Act.weight, Listener.weights_append,
        Listener.weights, Listener.weight, List.map_nil, List.nil_append]
      omega
    · simp only [weight, Task.weights, Task.weight, Act.weight, List.map_nil, List.nil_append]
      omega
  | publish m =>
    simp only [step, perform]
    split
    · simp only [weight, Task.weights_append, Task.weights_deliver]
      simp [Task.weights, Task.weight, Act.weight]
    · simp [weight, Task.weights, Task.weight, Act.weight]
  | _ => simp [step, perform, weight, Task.weights, Task.weight, Act.weight]

/-- A `deliver` leaves less to be done, or the same with fewer tasks. -/
theorem deliver_decreases (r : Room) (i : Nat) (m : Message) (tasks : List Task) :
    let next := r.step (.deliver i m) tasks
    next.2.weight next.1 < r.weight (.deliver i m :: tasks) ∨
      next.2.weight next.1 = r.weight (.deliver i m :: tasks) ∧ next.1.length ≤ tasks.length := by
  simp only [step, receive]
  split
  · right; simp [weight, Task.weights, Task.weight]
  · rename_i l hl
    split
    · right; simp [weight, Task.weights, Task.weight]
    · rename_i runs hruns
      left
      have hs := Listener.weights_set hl { l with runs }
      simp only [Listener.weight, hruns, Nat.succ_mul] at hs
      simp only [weight, Task.weights_append, Task.weights_perform, Task.weights, Task.weight]
      omega

/-- Repeated `step`, until no task is left. -/
def work (r : Room) : List Task → Room
  | [] => r
  | t :: tasks => work (r.step t tasks).2 (r.step t tasks).1
termination_by tasks => (r.weight tasks, tasks.length)
decreasing_by
  cases t with
  | perform label act => exact Prod.Lex.left _ _ (perform_weight_lt r label act tasks)
  | deliver i m =>
    rcases deliver_decreases r i m tasks with h | ⟨h, hl⟩
    · exact Prod.Lex.left _ _ h
    · rw [h]
      exact Prod.Lex.right _ (Nat.lt_succ_of_le hl)
  | note label reply =>
    refine Prod.lex_def.2 (.inr ⟨?_, ?_⟩) <;> simp [step, weight, Task.weights, Task.weight]

/-- Carries out an `Act` and everything that it leads to. -/
def run (r : Room) (act : Act) : Reply × Room :=
  let (reply, deliveries, r) := r.perform act
  (reply, r.work (deliveries.map fun d => Task.deliver d.receiver d.message))

/-- A single `publish`, with everything that it leads to. -/
def attempt (m : Message) (r : Room) : Except Failure Unit × Room :=
  match r.run (.publish m) with
  | (.failed f, r) => (.error f, r)
  | (_, r) => (.ok (), r)

/-- Publishes a message, trying again as the policy says (`Retry.run`); the pauses add up to the
second component. -/
def publishRetrying (r : Room) (policy : Retry) (m : Message) : Reply × Nat × Room :=
  match policy.run (attempt m) r with
  | (.ok (), elapsed, r) => (.done, elapsed, r)
  | (.error f, elapsed, r) => (.failed f, elapsed, r)

end Room

end VoiceTurn.Bus
