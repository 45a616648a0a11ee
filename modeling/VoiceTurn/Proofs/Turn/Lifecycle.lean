import VoiceTurn.Proofs.Turn.Chronicle

/-!
# The life of a turn

Every call on the machine continues its chronicle: it accepts an event, closes the turn, does both
(an interruption), or adds nothing. By induction over the calls, made in any order and at any
instants, the journal of every run is the journal of a sound chronicle.
-/

namespace VoiceTurn

namespace Chronicle

variable {h : Chronicle} {m : Machine}

/-! ## What a described machine looks like -/

lemma Describes.phase_eq (hm : h.Describes m) : m.phase = phaseAfter h.current := by
  cases hes : h.present with
  | none => rw [Machine.phase_of_no_session (hm.noSession hes), current, hes]; rfl
  | some es =>
    obtain ⟨progress, hs⟩ := hm.session es hes
    rw [Machine.phase_of_session hs, current, hes]
    rfl

lemma Describes.turnForRule_eq (hm : h.Describes m) : m.turnForRule = (h.number, h.number) := by
  cases hes : h.present with
  | none =>
    rw [Machine.turnForRule_of_no_session (hm.noSession hes), hm.turns]
    simp [opened, number, hes]
  | some es =>
    obtain ⟨progress, hs⟩ := hm.session es hes
    rw [Machine.turnForRule_of_session hs, hm.turns]
    simp [opened, number, hes]

/-- The session of `m` belongs to the `present` turn. -/
lemma Describes.of_session (hm : h.Describes m) {s : Session} (hs : m.session = some s) :
    ∃ es, h.present = some es ∧ s.turn = h.number ∧ s.phase = phaseAfter es := by
  cases hes : h.present with
  | none => simp [hm.noSession hes] at hs
  | some es =>
    obtain ⟨progress, hs'⟩ := hm.session es hes
    obtain rfl := Option.some.inj (hs.symm.trans hs')
    exact ⟨es, rfl, rfl, rfl⟩

/-- There is a session just when the phase is not `idle`, since the first event of a turn leads away
from it. -/
lemma Describes.session_isSome_iff (hs : h.IsSound) (hm : h.Describes m) :
    m.session.isSome ↔ m.phase ≠ .idle := by
  cases hes : h.present with
  | none =>
    have hnone := hm.noSession hes
    simp [hnone, Machine.phase_of_no_session hnone]
  | some es =>
    obtain ⟨progress, hsome⟩ := hm.session es hes
    obtain ⟨hne, -⟩ := hs.present es hes
    -- whatever phase the last event was accepted in, the one that follows is not idle
    have hphase : phaseAfter es ≠ .idle := by
      rw [← List.dropLast_concat_getLast hne, phaseAfter_snoc]
      cases phaseAfter es.dropLast <;> decide
    simp [hsome, Machine.phase_of_session hsome, hphase]

/-! ## What the calls do to a chronicle -/

lemma Describes.accept (hm : h.Describes m) (e : Event) (now : Nat) :
    (h.accept e).Describes (m.accept now) where
  turns := by
    rw [Machine.turns_accept, hm.turnForRule_eq]
    rfl
  noSession := nofun
  session := by
    intro es hes
    obtain rfl := Option.some.inj hes
    refine ⟨now, ?_⟩
    rw [Machine.session_accept, hm.turnForRule_eq, hm.phase_eq, phaseAfter_snoc]
    rfl

lemma Describes.close (hm : h.Describes m) {es : List Event} (hes : h.present = some es)
    (how : Ending) : (h.close es how).Describes m.clear where
  turns := by
    rw [Machine.turns_clear, hm.turns]
    simp [opened, Chronicle.close, hes]
  noSession := fun _ => rfl
  session := nofun

/-- The chronicle `h'` is `h` and `entries` more, and it describes `m`. -/
structure Continues (composer : Response.Composer) (h h' : Chronicle) (m : Machine)
    (entries : List (Nat × Entry)) : Prop where
  sound : h'.IsSound
  describes : h'.Describes m
  journal : h'.journal composer = h.journal composer ++ entries

lemma Continues.unchanged (composer : Response.Composer) (hs : h.IsSound) (hm : h.Describes m) :
    Continues composer h h m [] := ⟨hs, hm, (List.append_nil _).symm⟩

/-- What `Machine.clear` adds to the chronicle is the `termination` of the turn. -/
lemma Continues.ending (composer : Response.Composer) (hs : h.IsSound) (hm : h.Describes m)
    {s : Session} (hsession : m.session = some s) (how : Ending)
    (hhow : ∀ p, how.phase? = some p → p = s.phase) :
    ∃ h', Continues composer h h' m.clear (ofTurn s.turn (termination how how.commands)) := by
  obtain ⟨es, hes, hturn, hphase⟩ := hm.of_session hsession
  refine ⟨h.close es how, ?_, hm.close hes how, ?_⟩
  · exact hs.close hes fun p hp => (hhow p hp).trans hphase
  · rw [journal_close composer hes how, hturn]

/-- What `Machine.accept` adds to the chronicle is the `acceptance` of an event that the phase
awaits. -/
lemma Continues.accepting (composer : Response.Composer) (hs : h.IsSound) (hm : h.Describes m)
    {e : Event} (now : Nat) (he : e.cue ∈ m.phase.awaited) :
    Continues composer h (h.accept e) (m.accept now)
      (ofTurn m.turnForRule.1 (acceptance e (e.commands composer))) := by
  refine ⟨?_, hm.accept e now, ?_⟩
  · exact hs.accept (hm.phase_eq ▸ he)
  · rw [journal_accept, hm.turnForRule_eq]

end Chronicle

namespace Machine

open Chronicle

@[simp] lemma composer_call (m : Machine) (c : Call) : (m.call c).2.composer = m.composer := by
  cases c with
  | handle e now =>
    rw [call_handle]
    rcases m.handle_cases e now with ⟨-, heq⟩ | ⟨s, -, heq⟩ | ⟨-, -, reason, heq⟩ <;> rw [heq] <;>
      rfl
  | expire now =>
    rcases m.expire_cases now with ⟨s, -, -, heq⟩ | ⟨-, heq⟩
    · rw [call_expire_some heq]; rfl
    · rw [call_expire_none heq]
  | complete => rw [call_complete_snd, composer_clear]

/-- The step lemma: each call continues the chronicle by its `Call.entries`. -/
lemma exists_continues {h : Chronicle} {m : Machine} (hs : h.IsSound) (hm : h.Describes m)
    (c : Call) :
    ∃ h', Continues m.composer h h' (m.call c).2 (c.entries (m.call c).1) := by
  cases c with
  | handle e now =>
    rw [call_handle]
    rcases m.handle_cases e now with ⟨he, heq⟩ | ⟨s, hi, heq⟩ | ⟨-, -, reason, heq⟩
    · rw [heq]
      exact ⟨_, .accepting m.composer hs hm now he⟩
    · -- the old turn is closed, and the event opens a new one on the cleared machine
      obtain ⟨closed, hclosed⟩ := Continues.ending m.composer hs hm hi.1
        (.interrupted s.phase) (fun p hp => (Option.some.inj hp).symm)
      have hwake : e.cue ∈ m.clear.phase.awaited := by simp [hi.2.1, Phase.awaited]
      have hopened := Continues.accepting m.composer hclosed.sound hclosed.describes now hwake
      refine ⟨closed.accept e, hopened.sound, ?_, ?_⟩
      · rw [heq]
        exact hopened.describes
      · rw [hopened.journal, hclosed.journal, List.append_assoc, heq]
        simp [Call.entries, Ending.commands]
    · rw [heq]
      exact ⟨h, .unchanged m.composer hs hm⟩
  | expire now =>
    rcases m.expire_cases now with ⟨s, hsession, -, heq⟩ | ⟨-, heq⟩
    · rw [call_expire_some heq]
      exact Continues.ending m.composer hs hm hsession (.stalled s.phase)
        (fun p hp => (Option.some.inj hp).symm)
    · rw [call_expire_none heq]
      exact ⟨h, .unchanged m.composer hs hm⟩
  | complete =>
    cases hsession : m.session with
    | none =>
      rw [call_complete_none hsession]
      exact ⟨h, .unchanged m.composer hs hm⟩
    | some s =>
      rw [call_complete_some hsession]
      exact Continues.ending m.composer hs hm hsession .completed
        (fun p hp => absurd hp.symm (Option.some_ne_none p))

/-! ## Runs -/

@[simp] lemma composer_after (m : Machine) (cs : List Call) :
    (m.after cs).composer = m.composer := by
  induction cs generalizing m with
  | nil => rfl
  | cons c cs ih => rw [after_cons, ih, composer_call]

lemma exists_continues_run {h : Chronicle} {m : Machine} (hs : h.IsSound) (hm : h.Describes m)
    (cs : List Call) : ∃ h', Continues m.composer h h' (m.after cs) (m.journal cs) := by
  induction cs generalizing h m with
  | nil => exact ⟨h, .unchanged m.composer hs hm⟩
  | cons c cs ih =>
    obtain ⟨next, hnext⟩ := m.exists_continues hs hm c
    obtain ⟨last, hlast⟩ := ih hnext.sound hnext.describes
    rw [composer_call] at hlast
    refine ⟨last, hlast.sound, hlast.describes, ?_⟩
    rw [hlast.journal, hnext.journal, List.append_assoc]
    rfl

/-- A `fresh` machine is described by the empty chronicle. -/
lemma describes_fresh (policy : SecondWake) (patience : Nat) (composer : Response.Composer) :
    Describes {} (fresh policy patience composer) :=
  ⟨rfl, fun _ => rfl, nofun⟩

lemma issuedIn_append (j k : List (Nat × Entry)) :
    issuedIn (j ++ k) = issuedIn j ++ issuedIn k := List.filterMap_append

lemma issuedIn_termination (turn : Nat) (how : Ending) (commands : List Command) :
    issuedIn (ofTurn turn (termination how commands)) = commands := by
  simp [issuedIn, ofTurn, termination, List.filterMap_map, Function.comp_def, Entry.command?]

lemma issuedIn_acceptance (turn : Nat) (e : Event) (commands : List Command) :
    issuedIn (ofTurn turn (acceptance e commands)) = commands := by
  simp [issuedIn, ofTurn, acceptance, List.filterMap_map, Function.comp_def, Entry.command?]

lemma issuedIn_entries (m : Machine) (c : Call) :
    issuedIn (c.entries (m.call c).1) = (m.call c).1.commands := by
  cases c with
  | handle e now =>
    rw [call_handle]
    rcases m.handle_cases e now with ⟨-, heq⟩ | ⟨s, -, heq⟩ | ⟨-, -, reason, heq⟩
    · rw [heq]
      exact issuedIn_acceptance ..
    · rw [heq]
      simp only [Call.entries, issuedIn_append, issuedIn_termination, issuedIn_acceptance]
      exact List.take_append_drop ..
    · rw [heq]
      rfl
  | expire now =>
    rcases m.expire_cases now with ⟨s, -, -, heq⟩ | ⟨-, heq⟩
    · rw [call_expire_some heq]
      exact issuedIn_termination ..
    · rw [call_expire_none heq]
      rfl
  | complete =>
    cases hs : m.session with
    | none => rw [call_complete_none hs]; rfl
    | some s => rw [call_complete_some hs]; rfl

/-- Between them, the entries of `Machine.journal` hold the whole `commandLog`. -/
lemma issuedIn_journal (m : Machine) (cs : List Call) :
    issuedIn (m.journal cs) = m.commandLog cs := by
  induction cs generalizing m with
  | nil => rfl
  | cons c cs ih => rw [journal, issuedIn_append, issuedIn_entries, ih, commandLog_cons]

/-- Every run has a `Chronicle` that `IsSound`, describes the machine and tells its `journal`: turns
numbered from one, each with its events `InOrder` and all its commands. The next event of the
present turn is always accepted, and any other one is discarded, unless it `Interrupts`. -/
theorem turns_in_order (policy : SecondWake) (patience : Nat) (composer : Response.Composer)
    (cs : List Call) :
    let start := fresh policy patience composer
    let m := start.after cs
    let journal := start.journal cs
    ∃ h : Chronicle, h.IsSound ∧ h.Describes m ∧
      journal = h.journal composer ∧
      issuedIn journal = start.commandLog cs ∧
      (m.session.isSome ↔ m.phase ≠ .idle) ∧
      openedIn journal = List.range' 1 m.turns ∧
      (∀ s, m.session = some s → s.turn = (openedIn journal).length) ∧
      ∀ e now,
        (InOrder (h.current ++ [e]) → m.handle e now =
          (.advanced h.number e.cue m.phase m.phase.following (e.commands composer)
            (e.cue = .intentRecognized), m.accept now)) ∧
        (¬ InOrder (h.current ++ [e]) → (∀ s, ¬ m.Interrupts s e) →
          ∃ reason, m.handle e now = (.discarded m.phase e.cue reason, m)) := by
  intro start m journal
  have hempty : Chronicle.IsSound {} := ⟨nofun, nofun⟩
  obtain ⟨h, hsound, hm, hjournal⟩ :=
    exists_continues_run hempty (describes_fresh policy patience composer) cs
  have hcomposer : m.composer = composer := composer_after start cs
  have hopened : openedIn journal = List.range' 1 m.turns := by
    rw [hm.turns, ← hsound.openedIn_journal composer]
    exact congrArg openedIn hjournal.symm
  -- the next events of the turn are those that the phase of the machine awaits
  have hnext : ∀ e, InOrder (h.current ++ [e]) ↔ e.cue ∈ m.phase.awaited := by
    intro e
    rw [inOrder_snoc, hm.phase_eq]
    exact and_iff_right hsound.inOrder_current
  refine ⟨h, hsound, hm, hjournal.symm, issuedIn_journal start cs,
    hm.session_isSome_iff hsound, hopened, ?_, fun e now => ⟨?_, ?_⟩⟩
  · intro s hs
    obtain ⟨es, hes, hturn, -⟩ := hm.of_session hs
    rw [hopened, List.length_range', hm.turns, hturn]
    simp [Chronicle.number, Chronicle.opened, hes]
  · intro he
    rw [m.handle_of_awaited now ((hnext e).1 he), hm.turnForRule_eq, hcomposer]
  · intro he hno
    exact m.handle_of_not_awaited now (fun hawaited => he ((hnext e).2 hawaited)) hno

end Machine

end VoiceTurn
