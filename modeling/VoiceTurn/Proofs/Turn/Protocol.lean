import Mathlib.Tactic.Lemma
import VoiceTurn.Turn.Machine

/-!
# The protocol phase by phase

`Rule.table` is searched for a rule. This file reads the table the other way round, as functions of
the phase and of the event, so that no later proof has to search it again:

* `Phase.awaited` and `Phase.following`, the cues that end a phase and the phase that they lead to;
* `Event.commands`, the commands that an accepted event gives rise to, payloads included;
* `Machine.handle_cases`, `Machine.expire_cases` and `Machine.complete_eq`, which say everything
  that a call on the machine can do.
-/

namespace VoiceTurn

/-! ## Phases and events -/

namespace Phase

/-- The cues of the rules in `Rule.table` for a phase. -/
def awaited : Phase → List Cue
  | idle => [.wakeDetected]
  | listening => [.commandStopped, .commandTimedOut]
  | transcribing => [.textCaptured]
  | recognizing => [.intentRecognized]
  | responding => []

/-- The phase after one of the `awaited` cues. -/
def following : Phase → Phase
  | idle => listening
  | listening => transcribing
  | transcribing => recognizing
  | recognizing | responding => responding

end Phase

/-- The commands for an event that is accepted, in order: a captured text is passed on byte for
byte, an intent is answered by `Response.Composer.render`, and all other payloads are empty. -/
def Event.commands (composer : Response.Composer) (e : Event) : List Command :=
  match e.cue with
  | .wakeDetected => [.stop .wakeWord, .start .voiceCommand, .start .speechToText]
  | .commandStopped | .commandTimedOut => [.stop .speechToText, .start .wakeWord]
  | .textCaptured => [⟨.intentRecognition, .recognize, e.payload⟩]
  | .intentRecognized => [⟨.textToSpeech, .say, composer.render e.payload⟩]

/-! ## The table -/

/-- Every cue in `Phase.awaited` has a rule in `Rule.table`. It leads to `Phase.following`, its
directives resolve to `Event.commands`, and it ends the turn if the cue is an intent. -/
lemma Rule.for?_of_mem_awaited {p : Phase} {e : Event} (h : e.cue ∈ p.awaited) (m : Machine) :
    ∃ r, Rule.for? p e.cue = some r ∧ r.next = p.following ∧
      r.directives.map (m.resolve e) = e.commands m.composer ∧
      r.endsTurn = decide (e.cue = .intentRecognized) := by
  obtain ⟨cue, payload⟩ := e
  cases p <;> cases cue <;> simp [Phase.awaited] at h <;>
    exact ⟨_, rfl, rfl, rfl, rfl⟩

lemma Rule.for?_of_not_mem_awaited {p : Phase} {c : Cue} (h : c ∉ p.awaited) :
    Rule.for? p c = none := by
  cases p <;> cases c <;> first | rfl | exact absurd (by decide) h

namespace Machine

/-! ## What the calls do -/

/-- The machine without its session. -/
def clear (m : Machine) : Machine := { m with session := none }

/-- The machine after an event that it awaited, at the given instant: its session is in
`Phase.following`. -/
def accept (m : Machine) (now : Nat) : Machine :=
  { m with session := some ⟨m.turnForRule.1, m.phase.following, now⟩, turns := m.turnForRule.2 }

section
variable (m : Machine) (now : Nat)

@[simp] lemma phase_clear : m.clear.phase = .idle := rfl
@[simp] lemma turns_clear : m.clear.turns = m.turns := rfl
@[simp] lemma composer_clear : m.clear.composer = m.composer := rfl
@[simp] lemma turnForRule_clear : m.clear.turnForRule = (m.turns + 1, m.turns + 1) := rfl

@[simp] lemma session_accept :
    (m.accept now).session = some ⟨m.turnForRule.1, m.phase.following, now⟩ := rfl
@[simp] lemma turns_accept : (m.accept now).turns = m.turnForRule.2 := rfl

end

lemma phase_of_session {m : Machine} {s : Session} (h : m.session = some s) :
    m.phase = s.phase := by
  simp [phase, h]

lemma phase_of_no_session {m : Machine} (h : m.session = none) : m.phase = .idle := by
  simp [phase, h]

lemma turnForRule_of_session {m : Machine} {s : Session} (h : m.session = some s) :
    m.turnForRule = (s.turn, m.turns) := by
  simp [turnForRule, h]

lemma turnForRule_of_no_session {m : Machine} (h : m.session = none) :
    m.turnForRule = (m.turns + 1, m.turns + 1) := by
  simp [turnForRule, h]

lemma clear_of_no_session {m : Machine} (h : m.session = none) : m.clear = m := by
  unfold clear
  rw [← h]

/-- An event whose cue is in `Phase.awaited` is accepted. -/
lemma handle_of_awaited (m : Machine) {e : Event} (now : Nat) (h : e.cue ∈ m.phase.awaited) :
    m.handle e now =
      (.advanced m.turnForRule.1 e.cue m.phase m.phase.following (e.commands m.composer)
        (e.cue = .intentRecognized), m.accept now) := by
  obtain ⟨r, hr, hnext, hcommands, hends⟩ := Rule.for?_of_mem_awaited h m
  rw [handle, hr]
  simp only [apply, hnext, hcommands, hends, accept]

/-- Whether an event replaces the session: it is a wake word, the policy is `interrupt`, and the
phase of the session is `interruptible`. -/
def Interrupts (m : Machine) (s : Session) (e : Event) : Prop :=
  m.session = some s ∧ e.cue = .wakeDetected ∧ m.policy = .interrupt ∧ interruptible s.phase

/-- An interruption (`Machine.interrupt`) is the compensation of the session and then the wake word
on the machine after `Machine.clear`. -/
lemma interrupt_eq (m : Machine) (s : Session) {e : Event} (now : Nat)
    (h : e.cue = .wakeDetected) :
    m.interrupt s e now =
      (.interrupted s.turn s.phase (m.turns + 1) (s.phase.compensation ++ e.commands m.composer),
        m.clear.accept now) := by
  have hidle : e.cue ∈ Phase.idle.awaited := by simp [h, Phase.awaited]
  obtain ⟨r, hr, hnext, hcommands, -⟩ := Rule.for?_of_mem_awaited hidle m.clear
  have happly : m.clear.apply r e now =
      (.advanced (m.turns + 1) e.cue .idle r.next (e.commands m.composer) r.endsTurn,
        m.clear.accept now) := by
    simp only [apply, hcommands, hnext]
    rfl
  unfold interrupt
  rw [hr]
  show ((Outcome.interrupted s.turn s.phase (m.turns + 1)
    (s.phase.compensation ++ (m.clear.apply r e now).1.commands)), (m.clear.apply r e now).2) = _
  rw [happly]
  rfl

lemma handle_of_interrupts {m : Machine} {s : Session} {e : Event} (now : Nat)
    (h : m.Interrupts s e) :
    m.handle e now =
      (.interrupted s.turn s.phase (m.turns + 1) (s.phase.compensation ++ e.commands m.composer),
        m.clear.accept now) := by
  obtain ⟨hs, hcue, hpolicy, hphase⟩ := h
  -- the table comes first, so the phase must have no rule for the wake word itself
  have hwait : e.cue ∉ s.phase.awaited := by
    rw [hcue]
    cases hp : s.phase <;> simp_all [Phase.awaited, interruptible]
  rw [handle, phase_of_session hs, Rule.for?_of_not_mem_awaited hwait]
  simp only [if_pos hcue, hs]
  rw [if_pos ⟨hpolicy, hphase⟩, interrupt_eq m s now hcue]

/-- An event that is neither awaited nor `Interrupts` the session is discarded. -/
lemma handle_of_not_awaited (m : Machine) {e : Event} (now : Nat) (h : e.cue ∉ m.phase.awaited)
    (h' : ∀ s, ¬ m.Interrupts s e) :
    ∃ reason, m.handle e now = (.discarded m.phase e.cue reason, m) := by
  rw [handle, Rule.for?_of_not_mem_awaited h]
  -- only a wake word is discarded for reasons that depend on the policy
  by_cases hcue : e.cue = .wakeDetected
  · cases hs : m.session with
    | none => exact ⟨_, by simp only [hcue, if_true]; rfl⟩
    | some s =>
      have hno : ¬ (m.policy = .interrupt ∧ interruptible s.phase) :=
        fun hp => h' s ⟨hs, hcue, hp⟩
      exact ⟨_, by simp only [hcue, if_true, if_neg hno]; rfl⟩
  · exact ⟨_, by simp only [if_neg hcue]; rfl⟩

/-- Everything that `Machine.handle` can do: accept an event that is awaited, let one interrupt, or
discard it and stay as it is. -/
theorem handle_cases (m : Machine) (e : Event) (now : Nat) :
    (e.cue ∈ m.phase.awaited ∧ m.handle e now =
      (.advanced m.turnForRule.1 e.cue m.phase m.phase.following (e.commands m.composer)
        (e.cue = .intentRecognized), m.accept now)) ∨
    (∃ s, m.Interrupts s e ∧ m.handle e now =
      (.interrupted s.turn s.phase (m.turns + 1) (s.phase.compensation ++ e.commands m.composer),
        m.clear.accept now)) ∨
    (e.cue ∉ m.phase.awaited ∧ (∀ s, ¬ m.Interrupts s e) ∧
      ∃ reason, m.handle e now = (.discarded m.phase e.cue reason, m)) := by
  by_cases h : e.cue ∈ m.phase.awaited
  · exact .inl ⟨h, m.handle_of_awaited now h⟩
  · by_cases h' : ∃ s, m.Interrupts s e
    · obtain ⟨s, hs⟩ := h'
      exact .inr (.inl ⟨s, hs, handle_of_interrupts now hs⟩)
    · have hno : ∀ s, ¬ m.Interrupts s e := fun s hs => h' ⟨s, hs⟩
      exact .inr (.inr ⟨h, hno, m.handle_of_not_awaited now h hno⟩)

/-- Everything that `Machine.expire` can do: abandon a session whose deadline has come, or
nothing. -/
theorem expire_cases (m : Machine) (now : Nat) :
    (∃ s, m.session = some s ∧ s.progress + m.patience ≤ now ∧ m.expire now =
      some (.stalled s.turn s.phase (now - s.progress) s.phase.compensation, m.clear)) ∨
    ((∀ s, m.session = some s → now < s.progress + m.patience) ∧ m.expire now = none) := by
  cases hs : m.session with
  | none => exact .inr ⟨by simp, by simp [expire, hs]⟩
  | some s =>
    by_cases hnow : now < s.progress + m.patience
    · refine .inr ⟨fun t ht => ?_, by simp [expire, hs, hnow]⟩
      obtain rfl := Option.some.inj ht
      exact hnow
    · exact .inl ⟨s, rfl, by omega, by simp [expire, hs, hnow, clear]⟩

theorem complete_eq (m : Machine) : m.complete = (m.session, m.clear) := rfl

end Machine

end VoiceTurn
