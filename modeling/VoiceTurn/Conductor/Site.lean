import VoiceTurn.Bus.Access
import VoiceTurn.Bus.Retry
import VoiceTurn.Conductor.Feed
import VoiceTurn.Conductor.Inbox
import VoiceTurn.Conductor.Schedule
import VoiceTurn.Conductor.Worker
import VoiceTurn.Settings.Basic
import VoiceTurn.Tap.Basic

/-!
# Sites

A site is a conductor at work: a bus, the inbox that its events enter, the worker, the feed of
notices and any number of taps, all on one clock. Input that has arrived is read first. Then the
worker and the taps go on in the order in which they have been woken, each for as long as it can;
when one of them has taken in its share, it gives way to the others until the next round.
-/

namespace VoiceTurn.Conductor

open Bus (Access Carrier Delivery Message Request)

/-- What a subscription of a site feeds. -/
inductive Receiver where
  | inbox (cue : Cue)
  | tap (index : Nat) (cue : Cue)
  deriving DecidableEq, Repr

/-- What works by itself at a site. -/
inductive Part where
  | worker
  | tap (index : Nat)
  deriving DecidableEq, Repr

/-- Why an operation on a conductor failed. -/
inductive Refusal where
  /-- The registry has a defect, which is blamed on `slot`. -/
  | misconfigured (slot : String) (defect : Topic.Defect)
  | bus (f : Bus.Failure)
  | alreadyStopped
  deriving DecidableEq, Repr

def Refusal.message : Refusal → String
  | misconfigured slot defect => "Configuration error: topics." ++ slot ++ ": " ++ defect.message
  | bus f => "Bus error: " ++ f.message
  | alreadyStopped => "Orchestrator already stopped"

/-- How much a part takes in, events or records, before it gives way to the others. -/
def share : Nat := 128

/-- A conductor with everything around it. -/
structure Site where
  /-- The clock, in milliseconds. -/
  now : Nat := 0
  access : Access Receiver
  retry : Bus.Retry
  worker : Worker
  inbox : Inbox Event
  feed : Feed Notice
  taps : List Tap := []
  /-- The parts that have been woken and have not come to rest, in order. -/
  ready : List Part
  /-- The parts that have given way to the others until `nextRound?`, in order. -/
  yielded : List Part := []
  /-- How much of its `share` the part whose turn it is may still take in. -/
  left : Nat := share
  /-- The numbers of the subscriptions of the inbox. -/
  subscriptions : List Nat := []
  /-- How often the command that is being sent has been tried. -/
  tried : Nat := 0
  /-- Until when the worker pauses before it tries again. -/
  pausedUntil : Option Nat := none
  /-- Whether the worker has been told to stop. -/
  isStopping : Bool := false

/-- The part of a tap that can detach it: its `index` among the taps, and the numbers of its
subscriptions. -/
structure TapHandle where
  index : Nat
  subscriptions : List Nat

namespace Site

/-! ## Deliveries -/

def wake (s : Site) (p : Part) : Site :=
  if s.ready.contains p || s.yielded.contains p then s else { s with ready := s.ready ++ [p] }

/-- Hands a message to a `Receiver`, and wakes the part. -/
def deliver (s : Site) (d : Delivery Receiver) : Site :=
  match d.receiver with
  | .inbox cue => { s with inbox := s.inbox.offer ⟨cue, d.message.payload⟩ }.wake .worker
  | .tap i cue =>
    { s with
      taps := s.taps.modify i (·.offer ⟨d.message.topic, cue, d.message.payload⟩) }.wake (.tap i)

/-- Repeated `deliver`. The hand-over of a message to all its receivers is a single step: what other
threads do in between is not distinguished. -/
def deliverAll (s : Site) (ds : List (Delivery Receiver)) : Site := ds.foldl deliver s

/-- Takes over the worker, and puts its notices into the `feed`. -/
def took (s : Site) (w : Worker × List Notice) : Site :=
  { s with worker := w.1, feed := s.feed.pushAll w.2 }

/-! ## Steps -/

/-- Counts something that the part whose turn it is has taken in, against its `share`. -/
def spend (s : Site) : Site := { s with left := s.left - 1 }

/-- Reads the input that has arrived (`Carrier.readArrived?`). -/
def readStep? (s : Site) : Option Site :=
  s.access.carrier.readArrived?.map fun (ds, carrier) =>
    { s with access := { s.access with carrier } }.deliverAll ds

/-- Tries to send a message; after a failure that `isPassing` the worker pauses, as long as the
policy allows. -/
def attempt (s : Site) (m : Message) : Site :=
  let (result, carrier) := s.access.carrier.publish m
  let s := { s with access := { s.access with carrier }, pausedUntil := none }
  match result with
  | .ok ds => { s.deliverAll ds with tried := 0 }.took (s.worker.sent (.ok ()))
  | .error f =>
    match s.retry.pauseAfter? (s.tried + 1) f with
    | some pause => { s with tried := s.tried + 1, pausedUntil := some (s.now + pause) }
    | none => { s with tried := 0 }.took (s.worker.sent (.error f))

/-- Looks for something to do: an order to stop comes first, then an event, then the deadline. One
look is a single step: what other threads do while the worker looks is not distinguished from what
they do right after it. -/
def lookStep? (s : Site) : Option Site :=
  if s.isStopping then some { s with worker := s.worker.stop, inbox := s.inbox.close }
  else match s.inbox.take? with
    | some (e, inbox) => some ({ s with inbox }.spend.took (s.worker.handle e s.now))
    | none => (s.worker.expire? s.now).map s.spend.took

/-- Lets the worker go on: a `lookStep?` while it waits, or an `attempt` to send its next command
unless it pauses. -/
def workStep? (s : Site) : Option Site :=
  match s.worker.job with
  | .stopped => none
  | .waiting => s.lookStep?
  | .sending .. =>
    match s.pausedUntil, s.worker.message? with
    | some t, some m => if s.now < t then none else some (s.spend.attempt m)
    | none, some m => some (s.attempt m)
    | _, none => none

def tapStep? (s : Site) (index : Nat) : Option Site := do
  let t ← (← s.taps[index]?).step?
  some { s with taps := s.taps.set index t }.spend

def partStep? (s : Site) : Part → Option Site
  | .worker => s.workStep?
  | .tap i => s.tapStep? i

/-- Whether a part would take something in, or come to the end of a pause. -/
def looksForMore (s : Site) : Part → Bool
  | .worker =>
    match s.worker.job with
    | .waiting => true
    | .sending .. => s.pausedUntil.isSome
    | .stopped => false
  | .tap i => s.taps[i]?.any (·.stage = .running)

/-- Does the next thing that is `ready`; a part that cannot go on comes to rest. -/
def step? (s : Site) : Option Site :=
  match s.readStep? with
  | some s => some s
  | none =>
    match s.ready with
    | [] => none
    | p :: ps =>
      if s.left = 0 && s.looksForMore p then
        some { s with ready := ps, yielded := s.yielded ++ [p], left := share }
      else some ((s.partStep? p).getD { s with ready := ps, left := share })

/-- Lets the parts go on that have `yielded`. -/
def nextRound? (s : Site) : Option Site :=
  if s.yielded.isEmpty then none
  else some { s with ready := s.ready ++ s.yielded, yielded := [] }

/-- The end of the worker's pause, or the `deadline?` of the session while the worker waits. -/
def timer? (s : Site) : Option Nat :=
  match s.worker.job with
  | .waiting => s.worker.machine.deadline?
  | .sending .. => s.pausedUntil
  | .stopped => none

/-- Sets the clock; the worker looks at it. -/
def setClock (s : Site) (t : Nat) : Site := { s with now := t }.wake .worker

instance : World Site where
  step? := step?
  nextRound? := nextRound?
  now := now
  timer? := timer?
  setClock := setClock

/-! ## Starting and stopping -/

/-- The subscriptions of an inbox: one for each cue. -/
def inboxRequests (r : Topic.Registry) (qos : Bus.Qos) : List (Request Receiver) :=
  Cue.all.map fun c => ⟨r.ofCue c, qos, .inbox c⟩

/-- Puts a conductor at work on a bus, beside the `taps` that are there already. When that fails,
the bus is left without its subscriptions. -/
def start (access : Access Receiver) (taps : List Tap) (retry : Bus.Retry)
    (registry : Topic.Registry) (settings : Settings) : Except Refusal Site × Access Receiver :=
  match registry.defect? with
  | some (slot, defect) => (.error (.misconfigured slot defect), access)
  | none =>
    match access.subscribeAll [] (inboxRequests registry settings.bus.inboundQos) with
    | (.error f, access) => (.error (.bus f), access)
    | (.ok subscriptions, access) =>
      (.ok {
        access, taps, retry, subscriptions
        ready := (List.range taps.length).map .tap ++ [.worker]
        worker := ⟨registry, settings.bus.outboundQos, settings.machine, {}, {}, .waiting⟩
        inbox := .withCapacity settings.turn.queueCapacity.toNat
        feed := .withCapacity settings.turn.feedCapacity.toNat }, access)

def isRunning (s : Site) : Bool := !s.isStopping

/-- Removes the `subscriptions` of the inbox once the worker has stopped. -/
def unsubscribe (s : Site) : Except Refusal Unit × Site :=
  let (result, access) := s.access.unsubscribeAll s.subscriptions
  (result.mapError .bus, { s with access, subscriptions := [] })

/-- Tells the worker to stop once it has sent the commands at hand. -/
def orderStop (s : Site) : Site := { s with isStopping := true }.wake .worker

/-- Gives the worker `orderStop`, waits until it has stopped, and removes the subscriptions of its
inbox. -/
def shutdown (s : Site) (steps : Nat) : Except Refusal Unit × Site :=
  if s.isStopping then (.error .alreadyStopped, s)
  else (World.await (fun t : Site => t.worker.isStopped) steps steps s.orderStop).unsubscribe

/-- Publishes a message on the bus itself, without trying again. -/
def post (s : Site) (m : Message) : Except Bus.Failure Unit × Site :=
  let (result, carrier) := s.access.carrier.publish m
  let s := { s with access := { s.access with carrier } }
  match result with
  | .ok ds => (.ok (), s.deliverAll ds)
  | .error f => (.error f, s)

def localBus? (s : Site) : Option (Bus.Local Receiver) :=
  match s.access.carrier with
  | .inProcess b => some b
  | .link _ => none

def mapLocal (s : Site) (f : Bus.Local Receiver → Bus.Local Receiver) : Site :=
  match s.access.carrier with
  | .inProcess b => { s with access := { s.access with carrier := .inProcess (f b) } }
  | .link _ => s

/-- Enters an event past the bus, waiting for room in the inbox (`Inbox.send`). -/
def inject (s : Site) (e : Event) (steps : Nat) : Except Refusal Unit × Site :=
  match s.inbox.send e with
  | (.refused, _) => (.error .alreadyStopped, s)
  | (.entered, inbox) => (.ok (), { s with inbox }.wake .worker)
  | (.waits, inbox) =>
    let s := World.await (fun t : Site => t.inbox.waiting.isEmpty) steps steps { s with inbox }
    if s.inbox.isClosed then (.error .alreadyStopped, s)
    else (.ok (), { s with inbox := s.inbox.enterGranted }.wake .worker)

/-! ## Taps -/

/-- The subscriptions of the tap at `index`: one for each of `Tap.cues`. -/
def tapRequests (r : Topic.Registry) (index : Nat) : List (Request Receiver) :=
  Tap.cues.map fun c => ⟨r.ofCue c, .atMostOnce, .tap index c⟩

/-- Attaches a tap to a bus beside other taps. When that fails, the tap is `stopped` before it
began. -/
def attachTo (access : Access Receiver) (taps : List Tap) (registry : Topic.Registry) (tap : Tap) :
    Except Bus.Failure TapHandle × Access Receiver × List Tap :=
  match access.subscribeAll [] (tapRequests registry taps.length) with
  | (.ok subscriptions, access) => (.ok ⟨taps.length, subscriptions⟩, access, taps ++ [tap])
  | (.error f, access) => (.error f, access, taps ++ [{ tap with stage := .stopped }])

def attachTap (s : Site) (registry : Topic.Registry) (tap : Tap) :
    Except Bus.Failure TapHandle × Site :=
  let (result, access, taps) := attachTo s.access s.taps registry tap
  let s := { s with access, taps }
  match result with
  | .ok h => (.ok h, s.wake (.tap h.index))
  | .error f => (.error f, s)

/-- Asks a tap to `drain`, and leaves its subscriptions as they are. -/
def abandonTap (s : Site) (h : TapHandle) : Site :=
  { s with taps := s.taps.modify h.index Tap.drain }.wake (.tap h.index)

/-- Asks a tap to `drain`; its subscriptions are removed up to the first removal that fails. -/
def releaseTap (s : Site) (h : TapHandle) : Except Bus.Failure Unit × Site :=
  let (result, access) := s.access.unsubscribeAll h.subscriptions
  (result, { s with access }.abandonTap h)

def hasTapStopped (s : Site) (index : Nat) : Bool :=
  match s.taps[index]? with
  | some t => t.stage = .stopped
  | none => true

/-- Detaches a tap (`releaseTap`) and waits until it has emptied its queue. -/
def detachTap (s : Site) (h : TapHandle) (steps : Nat) : Except Bus.Failure Unit × Site :=
  match s.releaseTap h with
  | (.ok (), s) => (.ok (), World.await (fun t : Site => t.hasTapStopped h.index) steps steps s)
  | (.error f, s) => (.error f, s)

end Site

end VoiceTurn.Conductor
