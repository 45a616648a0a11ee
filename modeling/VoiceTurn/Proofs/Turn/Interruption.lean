import Mathlib.Tactic.SplitIfs
import VoiceTurn.Proofs.Turn.StallClock

/-!
# Interruptions

An interrupting wake word does in one call what the clock and a wake word do in two: the session is
abandoned as if its deadline had come, and the wake word then begins a turn on an idle machine. Both
ways lead to the same machine (`Machine.call_interrupting`), so what follows in a run cannot tell
which one has been taken. Everything else that a machine answers is independent of what it does with
a second wake word (`Machine.call_withPolicy`).
-/

namespace VoiceTurn.Machine

variable {m : Machine} {e : Event} {now late : Nat}

/-! ## An interruption in two calls -/

/-- An `interrupted` outcome comes only of an event that `Interrupts` the session. -/
lemma interrupts_of_handle {previous turn : Nat} {phase : Phase} {commands : List Command}
    (h : (m.handle e now).1 = .interrupted previous phase turn commands) :
    ∃ s, m.Interrupts s e ∧ previous = s.turn ∧ phase = s.phase ∧ turn = m.turns + 1 ∧
      commands = s.phase.compensation ++ e.commands m.composer := by
  rcases m.handle_cases e now with ⟨-, heq⟩ | ⟨s, hi, heq⟩ | ⟨-, -, reason, heq⟩
  · rw [heq] at h
    cases h
  · rw [heq] at h
    cases h
    exact ⟨s, hi, rfl, rfl, rfl, rfl⟩
  · rw [heq] at h
    cases h

/-- From its deadline on, `Machine.expire` abandons the session. -/
lemma expire_of_deadline {s : Session} (hs : m.session = some s)
    (hlate : s.progress + m.patience ≤ late) :
    m.expire late =
      some (.stalled s.turn s.phase (late - s.progress) s.phase.compensation, m.clear) := by
  rcases m.expire_cases late with ⟨s', hs', -, heq⟩ | ⟨hbefore, -⟩
  · obtain rfl := Option.some.inj (hs.symm.trans hs')
    exact heq
  · have hlt := hbefore s hs
    omega

/-- On a machine that `Machine.clear` has left without session, a wake word begins a turn. -/
lemma handle_clear_of_wake (hcue : e.cue = .wakeDetected) :
    m.clear.handle e now =
      (.advanced (m.turns + 1) .wakeDetected .idle .listening (e.commands m.composer) false,
        m.clear.accept now) := by
  have hawaited : e.cue ∈ m.clear.phase.awaited := by
    rw [hcue, phase_clear]
    decide
  rw [handle_of_awaited _ now hawaited, hcue]
  rfl

/-- The one call that `interrupt`s, and the two calls that it stands for: they lead to the same
machine, and the commands of the one are those of the two, in order. -/
lemma call_interrupting (now : Nat) {s : Session} (hi : m.Interrupts s e)
    (hlate : s.progress + m.patience ≤ late) :
    m.call (.handle e now) =
        (.outcome (.interrupted s.turn s.phase (m.turns + 1)
          (s.phase.compensation ++ e.commands m.composer)), m.clear.accept now) ∧
      m.call (.expire late) =
        (.outcome (.stalled s.turn s.phase (late - s.progress) s.phase.compensation), m.clear) ∧
      m.clear.call (.handle e now) =
        (.outcome (.advanced (m.turns + 1) .wakeDetected .idle .listening
          (e.commands m.composer) false), m.clear.accept now) := by
  refine ⟨?_, call_expire_some (expire_of_deadline hi.1 hlate), ?_⟩
  · rw [call_handle, handle_of_interrupts now hi]
  · rw [call_handle, handle_clear_of_wake hi.2.1]

/-- In `SpellsOut m cs ds` the calls `ds` are `cs` with some of the interruptions replaced by
`expire`, at the deadline of the session or later, and `handle` for the same wake word. -/
inductive SpellsOut : Machine → List Call → List Call → Prop
  | nil (m : Machine) : SpellsOut m [] []
  | keep {m : Machine} (c : Call) {cs ds : List Call} :
    SpellsOut (m.call c).2 cs ds → SpellsOut m (c :: cs) (c :: ds)
  | spell {m : Machine} {e : Event} {now late d previous turn : Nat} {phase : Phase}
    {commands : List Command} {cs ds : List Call} :
    (m.handle e now).1 = .interrupted previous phase turn commands →
    m.deadline? = some d → d ≤ late → SpellsOut (m.handle e now).2 cs ds →
    SpellsOut m (.handle e now :: cs) (.expire late :: .handle e now :: ds)

lemma SpellsOut.commandLog_after {cs ds : List Call} (h : SpellsOut m cs ds) :
    m.commandLog ds = m.commandLog cs ∧ m.after ds = m.after cs := by
  induction h with
  | nil m => exact ⟨rfl, rfl⟩
  | keep c _ ih =>
    rw [commandLog_cons, commandLog_cons, after_cons, after_cons, ih.1, ih.2]
    exact ⟨rfl, rfl⟩
  | @spell m e now late d _ _ _ _ cs ds ho hd hlate _ ih =>
    obtain ⟨s, hi, -⟩ := interrupts_of_handle ho
    rw [deadline?_of_session hi.1, Option.some.injEq] at hd
    rw [← hd] at hlate
    obtain ⟨hone, hstall, hwake⟩ := call_interrupting now hi hlate
    -- both ways lead to the machine from which the rest of the calls goes on
    have hnext : (m.handle e now).2 = m.clear.accept now := congrArg Prod.snd hone
    rw [hnext] at ih
    rw [commandLog_cons, commandLog_cons, commandLog_cons, after_cons, after_cons, after_cons, hone,
      hstall, hwake, ih.1, ih.2]
    exact ⟨(List.append_assoc ..).symm, rfl⟩

/-! ## Machines that differ in what they do with a second wake word -/

def withPolicy (q : SecondWake) (m : Machine) : Machine := { m with policy := q }

section
variable (q : SecondWake)

@[simp] lemma phase_withPolicy : (m.withPolicy q).phase = m.phase := rfl
@[simp] lemma session_withPolicy : (m.withPolicy q).session = m.session := rfl
@[simp] lemma withPolicy_fresh (p : SecondWake) (patience : Nat) (composer : Response.Composer) :
    (fresh p patience composer).withPolicy q = fresh q patience composer := rfl

lemma apply_withPolicy (m : Machine) (r : Rule) :
    (m.withPolicy q).apply r e now =
      ((m.apply r e now).1, (m.apply r e now).2.withPolicy q) := rfl

/-- The policy is asked only about a wake word in a phase that is `interruptible`. -/
lemma handle_withPolicy (h : e.cue = .wakeDetected → interruptible m.phase = false) :
    (m.withPolicy q).handle e now = ((m.handle e now).1, (m.handle e now).2.withPolicy q) := by
  unfold handle
  rw [phase_withPolicy, session_withPolicy]
  cases hr : Rule.for? m.phase e.cue with
  | some r => exact apply_withPolicy q m r
  | none =>
    by_cases hcue : e.cue = .wakeDetected
    · simp only [if_pos hcue]
      cases hs : m.session with
      | none => rfl
      | some s =>
        have hkept : interruptible s.phase = false := by
          rw [← phase_of_session hs]
          exact h hcue
        simp only [hkept, Bool.false_eq_true, and_false, if_false]
    · simp only [if_neg hcue]

lemma expire_withPolicy (m : Machine) (now : Nat) :
    (m.withPolicy q).expire now = (m.expire now).map fun a => (a.1, a.2.withPolicy q) := by
  unfold expire
  rw [session_withPolicy]
  cases m.session with
  | none => rfl
  | some s =>
    show (if now < s.progress + m.patience then none else _) =
      (if now < s.progress + m.patience then none else _).map _
    split_ifs <;> rfl

/-- No call of the run brings a wake word in a phase that is `interruptible`. -/
def Undisturbed (m : Machine) (cs : List Call) : Prop :=
  ∀ before e now rest, cs = before ++ .handle e now :: rest → e.cue = .wakeDetected →
    (m.after before).phase ≠ .transcribing ∧ (m.after before).phase ≠ .recognizing

lemma interruptible_eq_false {p : Phase} (h : p ≠ .transcribing ∧ p ≠ .recognizing) :
    interruptible p = false := by
  cases p <;> simp_all [interruptible]

lemma Undisturbed.head {c : Call} {cs : List Call} (h : m.Undisturbed (c :: cs)) :
    ∀ e now, c = .handle e now → e.cue = .wakeDetected → interruptible m.phase = false := by
  rintro e now rfl hcue
  exact interruptible_eq_false (h [] e now cs rfl hcue)

lemma Undisturbed.tail {c : Call} {cs : List Call} (h : m.Undisturbed (c :: cs)) :
    (m.call c).2.Undisturbed cs := by
  rintro before e now rest rfl
  exact h (c :: before) e now rest rfl

/-- A call for which the policy is not asked does the same under every policy. -/
lemma call_withPolicy {c : Call}
    (h : ∀ e now, c = .handle e now → e.cue = .wakeDetected → interruptible m.phase = false) :
    (m.withPolicy q).call c = ((m.call c).1, (m.call c).2.withPolicy q) := by
  cases c with
  | handle e now => rw [call_handle, call_handle, handle_withPolicy q (h e now rfl)]
  | expire now =>
    cases heq : m.expire now with
    | none =>
      rw [call_expire_none heq, call_expire_none (by rw [expire_withPolicy, heq, Option.map_none])]
    | some a =>
      rw [call_expire_some heq,
        call_expire_some (by rw [expire_withPolicy, heq, Option.map_some])]
  | complete =>
    cases hs : m.session with
    | none => rw [call_complete_none hs, call_complete_none (m := m.withPolicy q) hs]
    | some s =>
      rw [call_complete_some hs, call_complete_some (m := m.withPolicy q) hs]
      rfl

lemma trace_withPolicy {cs : List Call} (h : m.Undisturbed cs) :
    (m.withPolicy q).trace cs = (m.trace cs).map fun a => (a.1, a.2.withPolicy q) := by
  induction cs generalizing m with
  | nil => rfl
  | cons c cs ih =>
    rw [trace_cons, trace_cons, call_withPolicy q h.head, List.map_cons, ← ih h.tail]

lemma after_withPolicy {cs : List Call} (h : m.Undisturbed cs) :
    (m.withPolicy q).after cs = (m.after cs).withPolicy q := by
  induction cs generalizing m with
  | nil => rfl
  | cons c cs ih => rw [after_cons, after_cons, call_withPolicy q h.head, ih h.tail]

end

/-- Under the policy `interrupt`, a call that interrupts is an `expire` at the deadline of the
session or later, and then the same call on the machine without session: the traces agree but for
that place, also when any number of interruptions is replaced (`SpellsOut`). On runs that are
`Undisturbed` both policies give the same trace. -/
theorem interruption_is_stall_and_wake (patience : Nat) (composer : Response.Composer) :
    let start := fresh .interrupt patience composer
    (∀ before later e now previous phase turn commands,
      let m := start.after before
      (m.handle e now).1 = .interrupted previous phase turn commands →
        e.cue = .wakeDetected ∧ ∃ s d, m.session = some s ∧ m.deadline? = some d ∧
          previous = s.turn ∧ phase = s.phase ∧
          ∀ late, d ≤ late → ∃ reset wake cleared next,
            commands = reset ++ wake ∧
            start.trace (before ++ .handle e now :: later) =
              start.trace before ++
                (.outcome (.interrupted previous phase turn commands), next) ::
                  next.trace later ∧
            start.trace (before ++ .expire late :: .handle e now :: later) =
              start.trace before ++
                (.outcome (.stalled previous phase (late - s.progress) reset), cleared) ::
                  (.outcome (.advanced turn .wakeDetected .idle .listening wake false), next) ::
                    next.trace later) ∧
      (∀ cs ds, SpellsOut start cs ds →
        start.commandLog ds = start.commandLog cs ∧ start.after ds = start.after cs) ∧
      ∀ p q cs, (fresh p patience composer).Undisturbed cs →
        (fresh q patience composer).trace cs =
            ((fresh p patience composer).trace cs).map (fun a => (a.1, a.2.withPolicy q)) ∧
          (fresh q patience composer).after cs =
            ((fresh p patience composer).after cs).withPolicy q := by
  intro start
  refine ⟨?_, fun cs ds h => h.commandLog_after, fun p q cs h => ?_⟩
  · intro before later e now previous phase turn commands m ho
    obtain ⟨s, hi, rfl, rfl, rfl, rfl⟩ := interrupts_of_handle ho
    refine ⟨hi.2.1, s, _, hi.1, deadline?_of_session hi.1, rfl, rfl, fun late hlate => ?_⟩
    obtain ⟨hone, hstall, hwake⟩ := call_interrupting now hi hlate
    refine ⟨_, _, m.clear, m.clear.accept now, rfl, ?_, ?_⟩
    · rw [trace_append, trace_cons, hone]
    · rw [trace_append, trace_cons, trace_cons, hstall, hwake]
  · exact ⟨trace_withPolicy q h, after_withPolicy q h⟩

example :
    let m := fresh .interrupt 30000 (.ofPhrases {})
    let wake (now : Nat) : Call := .handle ⟨.wakeDetected, []⟩ now
    let stop : Call := .handle ⟨.commandStopped, []⟩ 2000
    m.commandLog [wake 0, stop, wake 5000] =
      m.commandLog [wake 0, stop, .expire 32000, wake 5000] := by
  decide

end VoiceTurn.Machine
