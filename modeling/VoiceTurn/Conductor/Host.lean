import VoiceTurn.Conductor.Site
import VoiceTurn.Settings.Validation

/-!
# Hosts

A host runs a conductor over a link, with a tap when the settings ask for one, until it is told to
stop or the input ends. It then lets the worker finish the commands at hand, detaches everything and
answers the final counters.
-/

namespace VoiceTurn.Conductor

open Bus (Access)
open Line (Link)

inductive HostFault where
  | settings (f : SettingsFault)
  | conductor (r : Refusal)
  | bus (f : Bus.Failure)

def HostFault.message : HostFault → String
  | settings f => "Configuration error: " ++ f.message
  | conductor r => "Orchestrator error: " ++ r.message
  | bus f => "Bus error: " ++ f.message

/-- The counters with which a host ends. -/
structure Summary where
  tally : Tally
  overflows : Nat

/-- How far a host has come. -/
inductive HostStage where
  | running
  /-- The worker has been told to stop. -/
  | stopping
  /-- The tap empties its queue. -/
  | flushing
  | finished (result : Except HostFault Summary)

/-- A conductor over a link. -/
structure Host where
  site : Site
  tap : Option TapHandle := none
  stage : HostStage := .running
  /-- Whether the host has been told to stop. -/
  isToldToStop : Bool := false

namespace Host

def link? (h : Host) : Option (Link Receiver) :=
  match h.site.access.carrier with
  | .link l => some l
  | .inProcess _ => none

/-- Changes the link of a host, unless the host has finished with it. -/
def mapLink (h : Host) (f : Link Receiver → Link Receiver) : Host :=
  match h.site.access.carrier with
  | .link l =>
    { h with site := { h.site with access := { h.site.access with carrier := .link (f l) } } }
  | .inProcess _ => h

def isInputClosed (h : Host) : Bool :=
  match h.link? with
  | some l => l.isClosed
  | none => false

def summary (h : Host) : Summary := ⟨h.site.worker.tally, h.site.inbox.overflows⟩

/-- Attaches the tap that `settings.tap` asks for. -/
def startTap (settings : Settings) (registry : Topic.Registry) (access : Access Receiver) :
    Except Bus.Failure (Option TapHandle) × Access Receiver × List Tap :=
  if settings.tap.enabled then
    let (result, access, taps) :=
      Site.attachTo access [] registry (.withCapacity settings.tap.capacity.toNat .log)
    (result.map some, access, taps)
  else (.ok none, access, [])

/-- Starts a host over a link: `startTap`, then `Site.start`, and last the reader of the input. -/
def start (settings : Settings) (link : Link Receiver) : Except HostFault Host :=
  match settings.topics.registry with
  | .error f => .error (.settings f)
  | .ok registry =>
    let link := { link with limit := max settings.bus.maxLine.toNat 1 }
    match startTap settings registry { carrier := .link link } with
    | (.error f, _, _) => .error (.bus f)
    | (.ok tap, access, taps) =>
      match Site.start access taps settings.bus.retry.policy registry settings with
      | (.error r, _) => .error (.conductor r)
      | (.ok site, _) => .ok (mapLink { site, tap } fun l => l.start.2)

/-- Calls `Site.unsubscribe` for the inbox and asks the tap to stop. -/
def release (h : Host) : Host :=
  match h.site.unsubscribe with
  | (.error r, site) => { h with site, stage := .finished (.error (.conductor r)) }
  | (.ok (), site) =>
    match h.tap with
    | none => { h with site, stage := .flushing }
    | some handle =>
      match site.releaseTap handle with
      | (.ok (), site) => { h with site, stage := .flushing }
      | (.error f, site) => { h with site, stage := .finished (.error (.bus f)) }

def isFlushed (h : Host) : Bool :=
  match h.tap with
  | some handle => h.site.hasTapStopped handle.index
  | none => true

/-- Goes on to the next `HostStage` when it has come. -/
def stageStep? (h : Host) : Option Host :=
  match h.stage with
  | .running =>
    if h.isToldToStop || h.isInputClosed then
      some { h with site := h.site.orderStop, stage := .stopping }
    else none
  | .stopping => if h.site.worker.isStopped then some h.release else none
  | .flushing =>
    if h.isFlushed then some { h with stage := .finished (.ok h.summary) } else none
  | .finished _ => none

/-- Does the next thing that is ready; `Site.step?` comes before `stageStep?`. -/
def step? (h : Host) : Option Host :=
  match h.stage with
  | .finished _ => none
  | _ =>
    match h.site.step? with
    | some site => some { h with site }
    | none => h.stageStep?

instance : World Host where
  step? := step?
  nextRound? h := h.site.nextRound?.map fun site => { h with site }
  now h := h.site.now
  timer? h := h.site.timer?
  setClock h t := { h with site := h.site.setClock t }

def result? (h : Host) : Option (Except HostFault Summary) :=
  match h.stage with
  | .finished r => some r
  | _ => none

end Host

end VoiceTurn.Conductor
