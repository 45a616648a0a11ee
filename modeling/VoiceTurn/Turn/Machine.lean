import VoiceTurn.Turn.Rule
import VoiceTurn.Response.Composer

/-!
# The turn machine

The machine owns the one session that can be under way. It takes events and instants and answers
with the commands to send; the order of commands comes from the protocol alone. Instants are
milliseconds on any clock, and may go backwards.
-/

namespace VoiceTurn

/-- One turn, from an accepted wake word to its end; its number identifies it. -/
structure Session where
  turn : Nat
  phase : Phase
  /-- When the last accepted event arrived. -/
  progress : Nat
  deriving DecidableEq, Repr

/-- What a wake word does while a turn is under way. -/
inductive SecondWake where
  /-- It is discarded. -/
  | ignore
  /-- It replaces the turn, once its command has been spoken. -/
  | interrupt
  deriving DecidableEq, Repr

namespace SecondWake

def all : List SecondWake := [.ignore, .interrupt]

def name : SecondWake → String
  | ignore => "ignore"
  | interrupt => "interrupt"

end SecondWake

/-- Why an event has no effect. -/
inductive Discard where
  /-- The turn is past the phase that the event ends. -/
  | duplicate
  /-- The turn has not come to the phase that the event ends. -/
  | outOfOrder
  /-- A wake word came during a turn. -/
  | sessionActive
  deriving DecidableEq, Repr

namespace Discard

def all : List Discard := [.duplicate, .outOfOrder, .sessionActive]

def name : Discard → String
  | duplicate => "duplicate"
  | outOfOrder => "out_of_order"
  | sessionActive => "session_active"

end Discard

/-- What an event or the clock did; turns are given by their numbers. -/
inductive Outcome where
  /-- A rule applied. -/
  | advanced (turn : Nat) (cue : Cue) (before after : Phase) (commands : List Command)
      (endsTurn : Bool)
  /-- The event had no effect. -/
  | discarded (phase : Phase) (cue : Cue) (reason : Discard)
  /-- A wake word replaced the turn `previous`. -/
  | interrupted (previous : Nat) (phase : Phase) (turn : Nat) (commands : List Command)
  /-- The turn was abandoned after `idleFor` without progress. -/
  | stalled (turn : Nat) (phase : Phase) (idleFor : Nat) (commands : List Command)
  deriving DecidableEq, Repr

def Outcome.commands : Outcome → List Command
  | advanced _ _ _ _ commands _ => commands
  | discarded .. => []
  | interrupted _ _ _ commands => commands
  | stalled _ _ _ commands => commands

/-- The machine: its configuration, the session under way and the number of turns begun. -/
structure Machine where
  policy : SecondWake
  /-- After how long without `progress` a turn is abandoned. -/
  patience : Nat
  composer : Response.Composer
  session : Option Session := none
  turns : Nat := 0

namespace Machine

/-- The phase of the session, `idle` without one. -/
def phase (m : Machine) : Phase :=
  match m.session with
  | some s => s.phase
  | none => .idle

/-- When the session will be abandoned, if there is one: `patience` after its last `progress`.
Instants are unbounded numbers here; where they are bounded, an instant that cannot be represented
is a fault. -/
def deadline? (m : Machine) : Option Nat := m.session.map fun s => s.progress + m.patience

/-- The command of a directive for an event, with the payload of its `PayloadSource`. -/
def resolve (m : Machine) (e : Event) (d : Directive) : Command :=
  match d.source with
  | .empty => ⟨d.target, d.action, []⟩
  | .forwarded => ⟨d.target, d.action, e.payload⟩
  | .response => ⟨d.target, d.action, m.composer.render e.payload⟩

/-- The number of the session that a rule moves on, and the number of turns begun with it: without a
session the next turn begins. -/
def turnForRule (m : Machine) : Nat × Nat :=
  match m.session with
  | some s => (s.turn, m.turns)
  | none => (m.turns + 1, m.turns + 1)

/-- Applies a rule: the session of `turnForRule` moves on. -/
def apply (m : Machine) (r : Rule) (e : Event) (now : Nat) : Outcome × Machine :=
  let (turn, turns) := m.turnForRule
  (.advanced turn e.cue m.phase r.next (r.directives.map (m.resolve e)) r.endsTurn,
    { m with session := some ⟨turn, r.next, now⟩, turns := turns })

/-- Whether a wake word may replace a turn in this phase. -/
def interruptible : Phase → Bool
  | .transcribing | .recognizing => true
  | _ => false

/-- Why a second wake word is discarded: while the wake word is muted, it can only be a repetition
of the first one. -/
def secondWakeReason (p : Phase) : Discard :=
  if p.hearsWakeWord then .sessionActive else .duplicate

/-- Why an event without a rule is discarded: `duplicate` after the phase that it ends, and
`outOfOrder` before. -/
def discardReason (p : Phase) (c : Cue) : Discard :=
  match c.expectedIn? with
  | some expected => if expected.rank < p.rank then .duplicate else .outOfOrder
  | none => .outOfOrder

/-- Replaces the session by a new one: the old one is compensated first (`Phase.compensation`). -/
def interrupt (m : Machine) (s : Session) (e : Event) (now : Nat) : Outcome × Machine :=
  let cleared := { m with session := none }
  match Rule.for? .idle e.cue with
  | some r =>
    let (o, next) := cleared.apply r e now
    (.interrupted s.turn s.phase cleared.turnForRule.1 (s.phase.compensation ++ o.commands), next)
  | none => (.discarded .idle e.cue (discardReason .idle e.cue), cleared)

/-- Handles one event: by the rule for it, by `interrupt`, or by discarding it. -/
def handle (m : Machine) (e : Event) (now : Nat) : Outcome × Machine :=
  match Rule.for? m.phase e.cue with
  | some r => m.apply r e now
  | none =>
    if e.cue = .wakeDetected then
      match m.session with
      | some s =>
        if m.policy = .interrupt ∧ interruptible s.phase then m.interrupt s e now
        else (.discarded m.phase e.cue (secondWakeReason m.phase), m)
      | none => (.discarded m.phase e.cue (secondWakeReason m.phase), m)
    else (.discarded m.phase e.cue (discardReason m.phase e.cue), m)

/-- Abandons the session when `deadline?` has come. -/
def expire (m : Machine) (now : Nat) : Option (Outcome × Machine) :=
  match m.session with
  | some s =>
    if now < s.progress + m.patience then none
    else some (.stalled s.turn s.phase (now - s.progress) s.phase.compensation,
      { m with session := none })
  | none => none

/-- Ends the session once the commands of its last rule are sent. -/
def complete (m : Machine) : Option Session × Machine := (m.session, { m with session := none })

end Machine

end VoiceTurn
