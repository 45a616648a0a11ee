import Mathlib.Logic.Function.Iterate
import VoiceTurn.Proofs.Conductor.Worker

/-!
# Shifts of the worker

A shift is a worker at work: it is roused by an event or by the deadline, attempts to send its
commands one after the other, and is told how every attempt went. `Shift.rouse` and `Shift.attempt`
are the two steps between which others can look at the worker, and `Shift.run` makes them for a list
of occasions.
-/

namespace VoiceTurn.Conductor

/-- What rouses a worker that is `waiting`. -/
inductive Occasion where
  /-- An event is taken from the queue. -/
  | event (e : Event) (now : Nat)
  /-- The timer for the deadline fires. -/
  | deadline (now : Nat)

def Occasion.call : Occasion → Call
  | event e now => .handle e now
  | deadline now => .expire now

structure Attempt where
  message : Bus.Message
  result : Except Bus.Failure Unit

def Attempt.hasFailed (a : Attempt) : Bool := !a.result.isOk

/-- A worker with all that it has done so far, in order. -/
structure Shift where
  worker : Worker
  attempts : List Attempt := []
  notices : List Notice := []

namespace Shift

def fresh (registry : Topic.Registry) (qos : Bus.Qos) (machine : Machine) : Shift :=
  { worker := { registry, qos, machine } }

def took (s : Shift) (w : Worker × List Notice) : Shift :=
  { s with worker := w.1, notices := s.notices ++ w.2 }

/-- Lets the worker `handle` the event or `expire?` at the deadline. -/
def rouse (s : Shift) : Occasion → Shift
  | .event e now => s.took (s.worker.handle e now)
  | .deadline now =>
    match s.worker.expire? now with
    | some w => s.took w
    | none => s

/-- Lets the worker send its next command; `answer` is how the attempts go, by number. -/
def attempt (answer : Nat → Except Bus.Failure Unit) (s : Shift) : Shift :=
  match s.worker.message? with
  | some message =>
    let result := answer s.attempts.length
    took { s with attempts := s.attempts ++ [⟨message, result⟩] } (s.worker.sent result)
  | none => s

/-- A `rouse`, and then an `attempt` for every command. -/
def serve (answer : Nat → Except Bus.Failure Unit) (s : Shift) (o : Occasion) : Shift :=
  (attempt answer)^[(s.rouse o).worker.pending.length] (s.rouse o)

def run (answer : Nat → Except Bus.Failure Unit) (s : Shift) (occasions : List Occasion) : Shift :=
  occasions.foldl (serve answer) s

/-! ## The steps -/

variable {s : Shift} {answer : Nat → Except Bus.Failure Unit}

lemma attempt_eq {c : Command} {topic : String} {rest : List (Command × String)}
    {ending : Option Phase} (h : s.worker.job = .sending (c, topic) rest ending) :
    s.attempt answer =
      { worker := ((s.worker.noted (answer s.attempts.length)).proceed rest ending).1
        attempts := s.attempts ++ [⟨⟨topic, c.payload, s.worker.qos⟩, answer s.attempts.length⟩]
        notices := s.notices ++ report c topic (answer s.attempts.length) ::
          ((s.worker.noted (answer s.attempts.length)).proceed rest ending).2 } := by
  have hmessage : s.worker.message? = some ⟨topic, c.payload, s.worker.qos⟩ := by
    simp only [Worker.message?, h]
  simp only [attempt, hmessage, took, Worker.sent_eq _ h]

lemma attempt_of_pending_nil (h : s.worker.pending = []) : s.attempt answer = s := by
  have hmessage : s.worker.message? = none := by
    cases hjob : s.worker.job with
    | sending next rest ending => simp [Worker.pending, hjob] at h
    | waiting | stopped => simp only [Worker.message?, hjob]
  simp only [attempt, hmessage]

/-- A `rouse` is a call on the machine, whose outcome the worker `react`s to if there is one. -/
lemma rouse_cases (s : Shift) (o : Occasion) :
    (∃ outcome machine, s.worker.machine.call o.call = (.outcome outcome, machine) ∧
      s.rouse o = s.took (s.worker.react outcome machine)) ∨
    (s.worker.machine.call o.call = (.nothing, s.worker.machine) ∧ s.rouse o = s) := by
  cases o with
  | event e now => exact .inl ⟨_, _, Machine.call_handle .., rfl⟩
  | deadline now =>
    cases h : s.worker.machine.expire now with
    | none =>
      refine .inr ⟨Machine.call_expire_none h, ?_⟩
      simp only [rouse, Worker.expire?, h, Option.map_none]
    | some r =>
      refine .inl ⟨r.1, r.2, Machine.call_expire_some h, ?_⟩
      simp only [rouse, Worker.expire?, h, Option.map_some]

/-! ## The end of an occasion -/

lemma isStopped_rouse (o : Occasion) (h : s.worker.isStopped = false) :
    (s.rouse o).worker.isStopped = false := by
  rcases s.rouse_cases o with ⟨outcome, machine, -, heq⟩ | ⟨-, heq⟩
  · rw [heq, took, Worker.react_eq]
    exact Worker.isStopped_proceed ..
  · rw [heq]
    exact h

lemma isStopped_attempt (h : s.worker.isStopped = false) :
    (s.attempt answer).worker.isStopped = false := by
  rcases s.worker.sending_or_pending_eq_nil with ⟨c, topic, rest, ending, hjob⟩ | hpending
  · rw [attempt_eq hjob]
    exact Worker.isStopped_proceed ..
  · rw [attempt_of_pending_nil hpending]
    exact h

lemma pending_attempt : (s.attempt answer).worker.pending = s.worker.pending.tail := by
  rcases s.worker.sending_or_pending_eq_nil with ⟨c, topic, rest, ending, hjob⟩ | hpending
  · rw [attempt_eq hjob]
    show Worker.pending (Worker.proceed _ rest ending).1 = _
    rw [Worker.pending_proceed, Worker.pending, hjob]
    rfl
  · rw [attempt_of_pending_nil hpending, hpending]
    rfl

lemma pending_iterate_attempt (n : Nat) :
    ((attempt answer)^[n] s).worker.pending = s.worker.pending.drop n := by
  induction n with
  | zero => rfl
  | succ n ih => rw [Function.iterate_succ_apply', pending_attempt, ih, List.tail_drop]

/-- What holds after `rouse` and is preserved by `attempt` holds at the end of `serve`, and the
worker waits then. -/
lemma serve_induction {P : Shift → Prop} {o : Occasion} (hjob : s.worker.job = .waiting)
    (hrouse : P (s.rouse o)) (hattempt : ∀ t, P t → P (t.attempt answer)) :
    P (s.serve answer o) ∧ (s.serve answer o).worker.job = .waiting := by
  have hawake : s.worker.isStopped = false := by simp only [Worker.isStopped, hjob]
  have hiterate (n : Nat) : P ((attempt answer)^[n] (s.rouse o)) ∧
      ((attempt answer)^[n] (s.rouse o)).worker.isStopped = false := by
    induction n with
    | zero => exact ⟨hrouse, isStopped_rouse o hawake⟩
    | succ n ih =>
      rw [Function.iterate_succ_apply']
      exact ⟨hattempt _ ih.1, isStopped_attempt ih.2⟩
  refine ⟨(hiterate _).1, ?_⟩
  -- as many attempts as there were commands leave none, and a worker at work never stops by itself
  have hpending : (s.serve answer o).worker.pending = [] := by
    rw [serve, pending_iterate_attempt, List.drop_length]
  have hstopped : (s.serve answer o).worker.isStopped = false := (hiterate _).2
  cases h : (s.serve answer o).worker.job <;>
    simp [Worker.pending, Worker.isStopped, h] at hpending hstopped ⊢

/-- What `rouse` and `attempt` preserve holds after every `run`. -/
lemma run_induction {P : Shift → Prop} (hjob : s.worker.job = .waiting) (h : P s)
    (hrouse : ∀ t o, t.worker.job = .waiting → P t → P (t.rouse o))
    (hattempt : ∀ t, P t → P (t.attempt answer)) (occasions : List Occasion) :
    P (s.run answer occasions) ∧ (s.run answer occasions).worker.job = .waiting := by
  induction occasions generalizing s with
  | nil => exact ⟨h, hjob⟩
  | cons o occasions ih =>
    obtain ⟨hserve, hwaits⟩ := serve_induction hjob (hrouse s o hjob h) hattempt
    exact ih hwaits hserve

lemma registry_qos_run (hjob : s.worker.job = .waiting) (occasions : List Occasion) :
    (s.run answer occasions).worker.registry = s.worker.registry ∧
      (s.run answer occasions).worker.qos = s.worker.qos := by
  refine (run_induction (P := fun t => t.worker.registry = s.worker.registry ∧
    t.worker.qos = s.worker.qos) hjob ⟨rfl, rfl⟩ ?_ ?_ occasions).1
  · intro t o _ ht
    rcases t.rouse_cases o with ⟨outcome, machine, -, heq⟩ | ⟨-, heq⟩
    · rw [heq, took, Worker.react_eq]
      simpa using ht
    · rwa [heq]
  · intro t ht
    rcases t.worker.sending_or_pending_eq_nil with ⟨c, topic, rest, ending, hjob⟩ | hpending
    · rw [attempt_eq hjob]
      simpa using ht
    · rwa [attempt_of_pending_nil hpending]

end Shift

end VoiceTurn.Conductor
