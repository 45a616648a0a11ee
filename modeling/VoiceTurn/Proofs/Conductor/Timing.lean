import Mathlib.Tactic.Lemma
import Mathlib.Tactic.SplitIfs
import VoiceTurn.Proofs.Conductor.Refinement
import VoiceTurn.Proofs.Turn.StallClock

/-!
# What the clock decides

The clock decides when a session is abandoned, and nothing else. As long as the deadline lies ahead
(`Machine.IsAhead`) the clock does nothing, and what the machine answers to events does not depend
on when they come (`Machine.handle_untimed`), so the commands for a list of events are the same at
any instants (`Machine.commandLog_of_events`).
-/

namespace VoiceTurn

open Conductor (Occasion)

/-- The occasion of an event that is handled at an instant. -/
def Conductor.Occasion.ofTimed (p : Event × Nat) : Occasion := .event p.1 p.2

namespace Machine

/-! ## The deadline -/

/-- The `deadline?`, if there is one, lies ahead, and so will every later one. -/
def IsAhead (m : Machine) (now : Nat) : Prop := 0 < m.patience ∧ ∀ d ∈ m.deadline?, now < d

section
variable {m : Machine} {now : Nat}

lemma isAhead_clear (h : 0 < m.patience) : m.clear.IsAhead now :=
  ⟨h, fun _ hd => absurd hd (Option.not_mem_none _)⟩

lemma isAhead_accept (h : 0 < m.patience) : (m.accept now).IsAhead now := by
  refine ⟨h, fun d hd => ?_⟩
  have hdeadline : (m.accept now).deadline? = some (now + m.patience) := rfl
  rw [hdeadline, Option.mem_some_iff] at hd
  omega

lemma isAhead_handle (h : m.IsAhead now) (e : Event) : (m.handle e now).2.IsAhead now := by
  rcases m.handle_cases e now with ⟨-, heq⟩ | ⟨s, -, heq⟩ | ⟨-, -, reason, heq⟩ <;> rw [heq]
  · exact isAhead_accept h.1
  · exact isAhead_accept h.1
  · exact h

lemma expire_of_isAhead (h : m.IsAhead now) : m.expire now = none := by
  rcases m.expire_cases now with ⟨s, hs, hnow, -⟩ | ⟨-, heq⟩
  · have hdeadline : s.progress + m.patience ∈ m.deadline? := by
      rw [deadline?, hs]
      rfl
    have hlt := h.2 _ hdeadline
    omega
  · exact heq

end

/-! ## Instants -/

/-- The machine as if everything had happened at the instant zero. -/
def untimed (m : Machine) : Machine :=
  { m with session := m.session.map fun s => { s with progress := 0 } }

section
variable (m : Machine)

lemma phase_untimed : m.untimed.phase = m.phase := by
  cases hs : m.session <;> simp [untimed, phase, hs]

lemma turnForRule_untimed : m.untimed.turnForRule = m.turnForRule := by
  cases hs : m.session <;> simp [untimed, turnForRule, hs]

lemma clear_untimed : m.untimed.clear = m.clear.untimed := rfl

lemma accept_untimed (now : Nat) : m.untimed.accept 0 = (m.accept now).untimed := by
  unfold accept
  rw [turnForRule_untimed, phase_untimed]
  rfl

/-- What `handle` answers does not depend on instants. -/
lemma handle_untimed (e : Event) (now : Nat) :
    m.untimed.handle e 0 = ((m.handle e now).1, (m.handle e now).2.untimed) := by
  rcases m.handle_cases e now with ⟨h, heq⟩ | ⟨s, h, heq⟩ | ⟨h, hno, -⟩
  · have hawaited : e.cue ∈ m.untimed.phase.awaited := by rwa [phase_untimed]
    rw [heq, m.untimed.handle_of_awaited 0 hawaited, turnForRule_untimed, phase_untimed,
      m.accept_untimed now]
    rfl
  · obtain ⟨hs, hcue, hpolicy, hphase⟩ := h
    have hinterrupts : m.untimed.Interrupts { s with progress := 0 } e := by
      refine ⟨?_, hcue, hpolicy, hphase⟩
      rw [untimed, hs]
      rfl
    rw [heq, handle_of_interrupts 0 hinterrupts, clear_untimed, accept_untimed _ now]
    rfl
  · -- the event is discarded, and the reason is found in the phase and the policy
    unfold handle
    rw [phase_untimed, Rule.for?_of_not_mem_awaited h]
    by_cases hcue : e.cue = .wakeDetected
    · simp only [if_pos hcue]
      cases hs : m.session with
      | none =>
        have huntimed : m.untimed.session = none := by rw [untimed, hs]; rfl
        simp only [huntimed]
      | some s =>
        have huntimed : m.untimed.session = some { s with progress := 0 } := by
          rw [untimed, hs]
          rfl
        have hkept : ¬ (m.policy = .interrupt ∧ interruptible s.phase) :=
          fun hp => hno s ⟨hs, hcue, hp⟩
        have hkept' : ¬ (m.untimed.policy = .interrupt ∧ interruptible s.phase) := hkept
        simp only [huntimed, if_neg hkept, if_neg hkept']
    · simp only [if_neg hcue]

lemma schedule_append (os os' : List Occasion) :
    m.schedule (os ++ os') = m.schedule os ++ (m.after (m.schedule os)).schedule os' := by
  induction os generalizing m with
  | nil => rfl
  | cons o os ih =>
    rw [List.cons_append, schedule, schedule, ih, after_append, List.append_assoc]

lemma schedule_singleton (o : Occasion) : m.schedule [o] = m.callsFor o := List.append_nil _

/-- The `commandLog` for a list of events is the same at any instants. -/
lemma commandLog_untimed (timed : List (Event × Nat)) :
    m.commandLog (m.schedule (timed.map .ofTimed)) =
      m.untimed.commandLog (m.untimed.schedule (timed.map fun p => .ofTimed (p.1, 0))) := by
  induction timed generalizing m with
  | nil => rfl
  | cons p timed ih =>
    have hcall : m.untimed.call (Occasion.ofTimed (p.1, 0)).call =
        ((m.call (Occasion.ofTimed p).call).1, (m.call (Occasion.ofTimed p).call).2.untimed) := by
      show (Reply.outcome (m.untimed.handle p.1 0).1, (m.untimed.handle p.1 0).2) = _
      rw [handle_untimed m p.1 p.2]
      rfl
    -- whether the turn is completed is decided by the answer, which has no instants in it
    have hafter : m.untimed.after (m.untimed.callsFor (.ofTimed (p.1, 0))) =
        (m.after (m.callsFor (.ofTimed p))).untimed := by
      rw [after_callsFor, after_callsFor, hcall]
      split_ifs
      · exact clear_untimed _
      · rfl
    rw [List.map_cons, List.map_cons, schedule, schedule, commandLog_append, commandLog_append, ih,
      hafter, commandLog_callsFor, commandLog_callsFor, hcall]

lemma commandLog_of_events {timed timed' : List (Event × Nat)}
    (h : timed.map Prod.fst = timed'.map Prod.fst) :
    m.commandLog (m.schedule (timed.map .ofTimed)) =
      m.commandLog (m.schedule (timed'.map .ofTimed)) := by
  have hmap (l : List (Event × Nat)) : l.map (fun p => Occasion.ofTimed (p.1, 0)) =
      (l.map Prod.fst).map fun e => .ofTimed (e, 0) := by
    rw [List.map_map]
    rfl
  rw [commandLog_untimed, commandLog_untimed, hmap, hmap, h]

end

end Machine

end VoiceTurn
