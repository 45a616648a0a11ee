import VoiceTurn.Proofs.Turn.Protocol

/-!
# Runs of the machine

A run is a sequence of calls: events to handle, instants at which the clock is looked at, and
completions, in any order. `Machine.trace` lists what every call answers and the machine that it
leaves behind; `Machine.after` is the machine at the end.
-/

namespace VoiceTurn

/-- A call of `Machine.handle`, `Machine.expire` or `Machine.complete`. -/
inductive Call where
  | handle (e : Event) (now : Nat)
  | expire (now : Nat)
  | complete
  deriving DecidableEq, Repr

inductive Reply where
  /-- What `handle` or `expire` did. -/
  | outcome (o : Outcome)
  /-- The session that `complete` has ended. -/
  | completed (s : Session)
  /-- The deadline has not come, or there is no session. -/
  | nothing
  deriving DecidableEq, Repr

namespace Reply

def commands : Reply → List Command
  | outcome o => o.commands
  | completed _ | nothing => []

def endsTurn : Reply → Bool
  | outcome (.advanced _ _ _ _ _ ends) => ends
  | _ => false

end Reply

namespace Machine

/-- A machine before its first call. -/
def fresh (policy : SecondWake) (patience : Nat) (composer : Response.Composer) : Machine :=
  { policy, patience, composer }

def call (m : Machine) : Call → Reply × Machine
  | .handle e now =>
    let (o, next) := m.handle e now
    (.outcome o, next)
  | .expire now =>
    match m.expire now with
    | some (o, next) => (.outcome o, next)
    | none => (.nothing, m)
  | .complete =>
    match m.complete with
    | (some s, next) => (.completed s, next)
    | (none, next) => (.nothing, next)

/-- The replies of `call` one after the other, each with the machine that it leaves behind. -/
def trace (m : Machine) : List Call → List (Reply × Machine)
  | [] => []
  | c :: cs => m.call c :: (m.call c).2.trace cs

def after (m : Machine) (cs : List Call) : Machine := cs.foldl (fun m c => (m.call c).2) m

/-- All `Reply.commands` of a run, in order. -/
def commandLog (m : Machine) (cs : List Call) : List Command :=
  (m.trace cs).flatMap fun answer => answer.1.commands

section
variable (m : Machine) (c : Call) (cs ds : List Call)

@[simp] lemma trace_nil : m.trace [] = [] := rfl
@[simp] lemma trace_cons : m.trace (c :: cs) = m.call c :: (m.call c).2.trace cs := rfl
@[simp] lemma after_nil : m.after [] = m := rfl
@[simp] lemma after_cons : m.after (c :: cs) = (m.call c).2.after cs := rfl
@[simp] lemma commandLog_nil : m.commandLog [] = [] := rfl
@[simp] lemma commandLog_cons :
    m.commandLog (c :: cs) = (m.call c).1.commands ++ (m.call c).2.commandLog cs := rfl

lemma after_append : m.after (cs ++ ds) = (m.after cs).after ds := List.foldl_append

lemma trace_append : m.trace (cs ++ ds) = m.trace cs ++ (m.after cs).trace ds := by
  induction cs generalizing m with
  | nil => rfl
  | cons c cs ih =>
    rw [List.cons_append, trace_cons, ih]
    rfl

lemma commandLog_append :
    m.commandLog (cs ++ ds) = m.commandLog cs ++ (m.after cs).commandLog ds := by
  rw [commandLog, trace_append, List.flatMap_append]
  rfl

end

/-! ## Single calls -/

lemma call_handle (m : Machine) (e : Event) (now : Nat) :
    m.call (.handle e now) = (.outcome (m.handle e now).1, (m.handle e now).2) := rfl

lemma call_expire_some {m next : Machine} {now : Nat} {o : Outcome}
    (h : m.expire now = some (o, next)) : m.call (.expire now) = (.outcome o, next) := by
  simp only [call, h]

lemma call_expire_none {m : Machine} {now : Nat} (h : m.expire now = none) :
    m.call (.expire now) = (.nothing, m) := by
  simp only [call, h]

lemma call_complete_some {m : Machine} {s : Session} (h : m.session = some s) :
    m.call .complete = (.completed s, m.clear) := by
  simp only [call, complete_eq, h]

lemma call_complete_none {m : Machine} (h : m.session = none) :
    m.call .complete = (.nothing, m) := by
  simp only [call, complete_eq, h, clear_of_no_session h]

lemma call_complete_snd (m : Machine) : (m.call .complete).2 = m.clear := by
  cases hs : m.session with
  | none => rw [call_complete_none hs, clear_of_no_session hs]
  | some s => rw [call_complete_some hs]

/-- No command comes of `complete`. -/
lemma commands_call_complete (m : Machine) : (m.call .complete).1.commands = [] := by
  cases hs : m.session with
  | none =>
    rw [call_complete_none hs]
    rfl
  | some s =>
    rw [call_complete_some hs]
    rfl

end Machine

end VoiceTurn
