import VoiceTurn.Conductor.Notice
import VoiceTurn.Bus.Message
import VoiceTurn.Topic.Registry

/-!
# The worker

The worker owns the machine. It takes one event at a time, or the deadline of the session, and sends
the commands of the outcome one after the other before it looks for more. The commands that are left
are part of its state, so what others can see between two of them is part of it as well. A command
that cannot be sent is noted, and the next one follows.
-/

namespace VoiceTurn.Conductor

/-- What a worker is doing. -/
inductive Job where
  /-- It waits for an event or for the deadline. -/
  | waiting
  /-- It sends the command `next` on its topic, and then the `rest`. A turn that ends with them is
  in the phase `ending`. -/
  | sending (next : Command × String) (rest : List (Command × String)) (ending : Option Phase)
  | stopped

/-- A worker with its `machine`, what it shows of it, and its `job`. -/
structure Worker where
  registry : Topic.Registry
  /-- The guarantee that commands are sent with. -/
  qos : Bus.Qos
  machine : Machine
  tally : Tally := {}
  shown : Shown := {}
  job : Job := .waiting

namespace Worker

def isStopped (w : Worker) : Bool :=
  match w.job with
  | .stopped => true
  | _ => false

/-- Shows a phase and the session of the `machine`; a change of the phase is noted. -/
def display (w : Worker) (before after : Phase) : Worker × List Notice :=
  ({ w with shown := ⟨after, w.machine.session.map Session.turn⟩ },
    if before = after then [] else [.phaseChanged before after])

/-- Ends the turn in the given phase (`Machine.complete`). -/
def finish (w : Worker) (phase : Phase) : Worker × List Notice :=
  match w.machine.complete with
  | (none, _) => ({ w with job := .waiting }, [])
  | (some s, machine) =>
    let tally := { w.tally with completed := w.tally.completed + 1 }
    let (w, notices) := { w with machine, tally, job := .waiting }.display phase .idle
    (w, .turnCompleted s.turn :: notices)

/-- Goes on with the given commands; when there are none, the turn ends in the phase `ending`, if it
is to end. -/
def proceed (w : Worker) (commands : List (Command × String)) (ending : Option Phase) :
    Worker × List Notice :=
  match commands with
  | c :: rest => ({ w with job := .sending c rest ending }, [])
  | [] =>
    match ending with
    | some phase => w.finish phase
    | none => ({ w with job := .waiting }, [])

/-- The commands for which the `registry` has a topic, with their topics. -/
def addressed (w : Worker) (commands : List Command) : List (Command × String) :=
  commands.filterMap fun c => (w.registry.ofCommand? c.target c.action).map (c, ·)

/-- Counts what an `Outcome` did. -/
def count (t : Tally) : Outcome → Tally
  | .advanced _ _ before _ _ _ =>
    { t with accepted := t.accepted + 1,
             started := if before = .idle then t.started + 1 else t.started }
  | .discarded .. => { t with discarded := t.discarded + 1 }
  | .interrupted .. =>
    { t with accepted := t.accepted + 1, started := t.started + 1,
             interrupts := t.interrupts + 1 }
  | .stalled .. => { t with stalls := t.stalls + 1 }

/-- The notices with which an `Outcome` begins. -/
def opening : Outcome → List Notice
  | .advanced turn _ before _ _ _ => if before = .idle then [.sessionStarted turn] else []
  | .discarded phase cue reason => [.eventDiscarded cue phase reason]
  | .interrupted previous phase turn _ =>
    [.sessionInterrupted previous phase, .sessionStarted turn]
  | .stalled turn phase idleFor _ => [.sessionStalled turn phase idleFor]

/-- Takes over the machine after an outcome and begins to send its commands (`proceed`). -/
def react (w : Worker) (o : Outcome) (machine : Machine) : Worker × List Notice :=
  let w := { w with machine, tally := count w.tally o }
  let (w, shown) : Worker × List Notice := match o with
    | .advanced _ _ before after _ _ => w.display before after
    | .discarded .. => (w, [])
    | .interrupted _ phase _ _ => w.display phase machine.phase
    | .stalled _ phase _ _ => w.display phase .idle
  let ending := match o with
    | .advanced _ _ _ after _ true => some after
    | _ => none
  let (w, ended) := w.proceed (w.addressed o.commands) ending
  (w, opening o ++ shown ++ ended)

def handle (w : Worker) (e : Event) (now : Nat) : Worker × List Notice :=
  let (o, machine) := w.machine.handle e now
  w.react o machine

/-- Abandons the session when its deadline has come (`Machine.expire`). -/
def expire? (w : Worker) (now : Nat) : Option (Worker × List Notice) :=
  (w.machine.expire now).map fun (o, machine) => w.react o machine

/-- The message of the command that is to be sent. -/
def message? (w : Worker) : Option Bus.Message :=
  match w.job with
  | .sending (c, topic) _ _ => some ⟨topic, c.payload, w.qos⟩
  | _ => none

/-- Notes how sending the command went and goes on with the next one (`proceed`). -/
def sent (w : Worker) (result : Except Bus.Failure Unit) : Worker × List Notice :=
  match w.job with
  | .sending (c, topic) rest ending =>
    let (w, notice) : Worker × Notice := match result with
      | .ok () => (w, .commandIssued c topic)
      | .error f =>
        ({ w with tally := { w.tally with publishFailures := w.tally.publishFailures + 1 } },
          .publishFailed topic f)
    let (w, notices) := w.proceed rest ending
    (w, notice :: notices)
  | _ => (w, [])

def stop (w : Worker) : Worker := { w with job := .stopped }

end Worker

end VoiceTurn.Conductor
