import Mathlib.Data.List.Induction
import VoiceTurn.Proofs.Conductor.Shift

/-!
# What others can see of a shift

`Shift.Reaches` lists the points of a shift at which others can look at it: between two occasions,
and while the bus has not answered yet. What changes in a worker on the way from one point to the
next is made up of acts, and `Worker.Act` says once everything that an act can do to the machine,
the counters, the display and the notices. `Reaches.induction` is the principle that follows: what
every act preserves holds at every point.
-/

namespace VoiceTurn

/-! ## Machines between two calls -/

namespace Phase

lemma following_ne_idle (p : Phase) : p.following ≠ .idle := by cases p <;> decide

/-- No phase is its own `Phase.following`. -/
lemma ne_following {p : Phase} {c : Cue} (h : c ∈ p.awaited) : p ≠ p.following := by
  cases p with
  | responding => exact absurd h List.not_mem_nil
  | idle | listening | transcribing | recognizing => decide

end Phase

namespace Machine

/-- The session, if there is one, is past its first event, and its turn is `turns`. -/
def IsSound (m : Machine) : Prop :=
  ∀ s, m.session = some s → s.phase ≠ .idle ∧ s.turn = m.turns

lemma isSound_fresh (policy : SecondWake) (patience : Nat) (composer : Response.Composer) :
    (fresh policy patience composer).IsSound := nofun

lemma isSound_clear (m : Machine) : m.clear.IsSound := nofun

lemma IsSound.accept {m : Machine} (h : m.IsSound) (now : Nat) : (m.accept now).IsSound := by
  intro s hs
  rw [session_accept] at hs
  obtain rfl := Option.some.inj hs
  refine ⟨m.phase.following_ne_idle, ?_⟩
  show m.turnForRule.1 = m.turnForRule.2
  cases hs : m.session with
  | none => rw [turnForRule_of_no_session hs]
  | some s =>
    rw [turnForRule_of_session hs]
    exact (h s hs).2

lemma IsSound.phase_eq_idle_iff {m : Machine} (h : m.IsSound) :
    m.phase = .idle ↔ m.session = none := by
  cases hs : m.session with
  | none => simp [phase_of_no_session hs]
  | some s => simp [phase_of_session hs, (h s hs).1]

/-- A session that an event `Interrupts` is not in the phase `listening`, in which the next one
begins. -/
lemma Interrupts.phase_ne_listening {m : Machine} {s : Session} {e : Event}
    (h : m.Interrupts s e) : s.phase ≠ .listening := by
  intro hlistening
  have hinterruptible := h.2.2.2
  rw [hlistening] at hinterruptible
  exact absurd hinterruptible (by decide)

/-- The first event of a turn begins it, and no other `Machine.accept` does. -/
lemma IsSound.turns_accept {m : Machine} (h : m.IsSound) (now : Nat) :
    (m.accept now).turns = if m.phase = .idle then m.turns + 1 else m.turns := by
  rw [Machine.turns_accept]
  cases hs : m.session with
  | none => rw [turnForRule_of_no_session hs, if_pos (phase_of_no_session hs)]
  | some s => rw [turnForRule_of_session hs, if_neg (phase_of_session hs ▸ (h s hs).1)]

end Machine

namespace Conductor

namespace Worker

/-- What `Worker.shown` is for a phase and a session. -/
def showing (phase : Phase) (session : Option Session) : Shown :=
  ⟨phase, session.map Session.turn⟩

/-- Everything that a worker can do, with the `Notice`s of it: accept an event, replace the session,
discard an event, abandon the session or leave it, count an answer of the bus, and close a turn. The
`Occasion` is what causes it; `Worker.job` is left out. -/
inductive Act (w : Worker) : Option Occasion → Worker → List Notice → Prop where
  | accept {e : Event} (now : Nat) (he : e.cue ∈ w.machine.phase.awaited) :
    Act w (some (.event e now))
      { w with
        machine := w.machine.accept now
        tally := { w.tally with
          accepted := w.tally.accepted + 1
          started := if w.machine.phase = .idle then w.tally.started + 1 else w.tally.started }
        shown := showing w.machine.phase.following (w.machine.accept now).session }
      ((if w.machine.phase = .idle then [.sessionStarted w.machine.turnForRule.1] else []) ++
        [.phaseChanged w.machine.phase w.machine.phase.following])
  | interrupt {e : Event} {s : Session} (now : Nat) (hs : w.machine.Interrupts s e) :
    Act w (some (.event e now))
      { w with
        machine := w.machine.clear.accept now
        tally := { w.tally with
          accepted := w.tally.accepted + 1
          started := w.tally.started + 1
          interrupts := w.tally.interrupts + 1 }
        shown := showing .listening (w.machine.clear.accept now).session }
      [.sessionInterrupted s.turn s.phase, .sessionStarted (w.machine.turns + 1),
        .phaseChanged s.phase .listening]
  | discard (e : Event) (now : Nat) (reason : Discard) :
    Act w (some (.event e now))
      { w with tally := { w.tally with discarded := w.tally.discarded + 1 } }
      [.eventDiscarded e.cue w.machine.phase reason]
  | stall {s : Session} (now : Nat) (hs : w.machine.session = some s) :
    Act w (some (.deadline now))
      { w with
        machine := w.machine.clear
        tally := { w.tally with stalls := w.tally.stalls + 1 }
        shown := {} }
      [.sessionStalled s.turn s.phase (now - s.progress), .phaseChanged s.phase .idle]
  | rest (now : Nat) : Act w (some (.deadline now)) w []
  | note (c : Command) (topic : String) (result : Except Bus.Failure Unit) :
    Act w none (w.noted result) [report c topic result]
  | close {s : Session} (hs : w.machine.session = some s) (hphase : s.phase = .responding) :
    Act w none w.closed [.turnCompleted s.turn, .phaseChanged .responding .idle]

variable {w : Worker}

lemma Act.isSound {o : Option Occasion} {w' : Worker} {notices : List Notice}
    (h : w.Act o w' notices) (hw : w.machine.IsSound) : w'.machine.IsSound := by
  cases h with
  | accept now _ => exact hw.accept now
  | interrupt now _ => exact w.machine.isSound_clear.accept now
  | discard | rest => exact hw
  | stall | close => exact w.machine.isSound_clear
  | note c topic result => rwa [machine_noted]

/-- A `display` of another phase is noted. -/
lemma display_of_ne {before after : Phase} (h : before ≠ after) :
    w.display before after =
      ({ w with shown := showing after w.machine.session }, [.phaseChanged before after]) := by
  rw [display, if_neg h]
  rfl

/-- Each `adopt` is an `Act`, and a turn can end with it only in the phase `responding`. -/
lemma act_adopt (hw : w.machine.IsSound) {o : Occasion} {outcome : Outcome} {machine : Machine}
    (hcall : w.machine.call o.call = (.outcome outcome, machine)) :
    w.Act (some o) (w.adopt outcome machine).1 (w.adopt outcome machine).2 ∧
      ∀ p, ending? outcome = some p → p = .responding ∧ machine.phase = .responding := by
  cases o with
  | event e now =>
    have hhandle : w.machine.handle e now = (outcome, machine) := by
      rw [Occasion.call, Machine.call_handle] at hcall
      exact Prod.ext (Reply.outcome.inj (congrArg Prod.fst hcall))
        (congrArg (fun answer => answer.2) hcall)
    rcases w.machine.handle_cases e now with ⟨he, heq⟩ | ⟨s, hs, heq⟩ | ⟨-, -, reason, heq⟩ <;>
      rw [hhandle] at heq <;> cases heq
    · constructor
      · simp only [adopt, display_of_ne (Phase.ne_following he)]
        exact .accept now he
      · -- only the rule for an intent ends the turn, and it leads to `responding`
        intro p hp
        by_cases hcue : e.cue = .intentRecognized
        · have hphase : w.machine.phase = .recognizing := by
            rw [hcue] at he
            cases hphase : w.machine.phase <;> simp_all [Phase.awaited]
          simp only [ending?, hcue, decide_true, Option.some.injEq] at hp
          rw [← hp, Machine.phase_of_session (Machine.session_accept ..), hphase]
          exact ⟨rfl, rfl⟩
        · simp [ending?, hcue] at hp
    · have hphase : (w.machine.clear.accept now).phase = .listening := rfl
      constructor
      · simp only [adopt, hphase, display_of_ne hs.phase_ne_listening]
        exact .interrupt now hs
      · intro p hp
        cases hp
    · exact ⟨.discard e now reason, fun p hp => by cases hp⟩
  | deadline now =>
    rcases w.machine.expire_cases now with ⟨s, hs, -, heq⟩ | ⟨-, heq⟩
    · rw [Occasion.call, Machine.call_expire_some heq] at hcall
      cases hcall
      constructor
      · simp only [adopt, display_of_ne (hw s hs).1]
        exact .stall now hs
      · intro p hp
        cases hp
    · rw [Occasion.call, Machine.call_expire_none heq] at hcall
      cases hcall

end Worker

namespace Shift

/-- The points at which others can look at a shift, each with the occasions up to there: the start,
what `Shift.rouse` and `Shift.attempt` lead to, and a `Worker.stop` of a worker that waits. -/
inductive Reaches (answer : Nat → Except Bus.Failure Unit) (start : Shift) :
    List Occasion → Shift → Prop where
  | start : Reaches answer start [] start
  | rouse {occasions : List Occasion} {s : Shift} (h : Reaches answer start occasions s)
      (hjob : s.worker.job = .waiting) (o : Occasion) :
    Reaches answer start (occasions ++ [o]) (s.rouse o)
  | attempt {occasions : List Occasion} {s : Shift} (h : Reaches answer start occasions s) :
    Reaches answer start occasions (s.attempt answer)
  | stop {occasions : List Occasion} {s : Shift} (h : Reaches answer start occasions s)
      (hjob : s.worker.job = .waiting) :
    Reaches answer start occasions { s with worker := s.worker.stop }

variable {answer : Nat → Except Bus.Failure Unit} {start s : Shift} {occasions : List Occasion}

/-- The end of `Shift.serve` is one of the points. -/
lemma Reaches.serve (h : Reaches answer start occasions s) (hjob : s.worker.job = .waiting)
    (o : Occasion) : Reaches answer start (occasions ++ [o]) (s.serve answer o) :=
  (serve_induction hjob (h.rouse hjob o) fun _ ht => ht.attempt).1

/-- The end of `Shift.run` is one of the points, and the worker waits there. -/
lemma reaches_run (hjob : start.worker.job = .waiting) (occasions : List Occasion) :
    Reaches answer start occasions (start.run answer occasions) ∧
      (start.run answer occasions).worker.job = .waiting := by
  induction occasions using List.reverseRecOn with
  | nil => exact ⟨.start, hjob⟩
  | append_singleton occasions o ih =>
    have hrun : start.run answer (occasions ++ [o]) =
        (start.run answer occasions).serve answer o := List.foldl_append
    rw [hrun]
    exact ⟨ih.1.serve ih.2 o, (serve_induction ih.2 (P := fun _ => True) trivial
      fun _ _ => trivial).2⟩

section
variable {Inv : List Occasion → Worker → List Notice → Prop}

/-- What an invariant needs in order to hold at every point of a shift: it does not look at
`Worker.job`, and every `Act` of a sound worker preserves it. -/
structure IsInvariant (Inv : List Occasion → Worker → List Notice → Prop) : Prop where
  job : ∀ {occasions w notices} (job : Job), Inv occasions w notices →
    Inv occasions { w with job } notices
  act : ∀ {occasions w notices o w' new}, w.machine.IsSound → Inv occasions w notices →
    w.Act o w' new → Inv (occasions ++ o.toList) w' (notices ++ new)

/-- The invariant holds, the machine `IsSound`, and a turn that is to end is `responding`. -/
structure Holds (Inv : List Occasion → Worker → List Notice → Prop) (occasions : List Occasion)
    (s : Shift) : Prop where
  inv : Inv occasions s.worker s.notices
  sound : s.worker.machine.IsSound
  ending : ∀ c rest p, s.worker.job = .sending c rest (some p) →
    p = .responding ∧ s.worker.machine.phase = .responding

/-- Each `Worker.proceed` preserves an invariant; it may close a turn. -/
lemma IsInvariant.proceed (hI : IsInvariant Inv) {w : Worker} {notices : List Notice}
    (attempts : List Attempt) (h : Inv occasions w notices) (hw : w.machine.IsSound)
    (commands : List (Command × String)) {ending : Option Phase}
    (hending : ∀ p, ending = some p → p = .responding ∧ w.machine.phase = .responding) :
    Holds Inv occasions ⟨(w.proceed commands ending).1, attempts,
      notices ++ (w.proceed commands ending).2⟩ := by
  rcases w.proceed_cases commands ending with
    ⟨c, rest, -, heq⟩ | ⟨-, -, heq⟩ | ⟨phase, t, -, he, ht, heq⟩ <;> rw [heq]
  · rw [List.append_nil]
    refine ⟨hI.job _ h, hw, fun c' rest' p hp => ?_⟩
    cases hp
    exact hending p rfl
  · rw [List.append_nil]
    exact ⟨hI.job _ h, hw, nofun⟩
  · obtain ⟨rfl, hphase⟩ := hending phase he
    rw [Machine.phase_of_session ht] at hphase
    have hclose := hI.act hw h (.close ht hphase)
    rw [Option.toList_none, List.append_nil] at hclose
    exact ⟨hclose, w.machine.isSound_clear, nofun⟩

lemma IsInvariant.rouse (hI : IsInvariant Inv) (h : Holds Inv occasions s) (o : Occasion) :
    Holds Inv (occasions ++ [o]) (s.rouse o) := by
  rcases s.rouse_cases o with ⟨outcome, machine, hcall, heq⟩ | ⟨hcall, heq⟩ <;> rw [heq]
  · obtain ⟨hact, hending⟩ := Worker.act_adopt h.sound hcall
    have hadopt := hI.act h.sound h.inv hact
    rw [took, Worker.react_eq, ← List.append_assoc]
    refine hI.proceed s.attempts hadopt (hact.isSound h.sound) _ ?_
    rwa [Worker.machine_adopt]
  · -- an event is always answered by an outcome, so this is a deadline that has not come
    cases o with
    | event e now => cases hcall
    | deadline now =>
      have hrest := hI.act h.sound h.inv (.rest now)
      rw [List.append_nil] at hrest
      exact ⟨hrest, h.sound, h.ending⟩

lemma IsInvariant.attempt (hI : IsInvariant Inv) (h : Holds Inv occasions s) :
    Holds Inv occasions (s.attempt answer) := by
  rcases s.worker.sending_or_pending_eq_nil with ⟨c, topic, rest, ending, hjob⟩ | hpending
  · have hnote := hI.act h.sound h.inv (.note c topic (answer s.attempts.length))
    rw [Option.toList_none, List.append_nil] at hnote
    rw [attempt_eq hjob, List.append_cons s.notices]
    refine hI.proceed _ hnote (by rw [Worker.machine_noted]; exact h.sound) rest ?_
    intro p hp
    rw [Worker.machine_noted]
    exact h.ending _ _ p (hp ▸ hjob)
  · rwa [attempt_of_pending_nil hpending]

/-- What every `Act` preserves holds at every point of a shift. -/
theorem Reaches.induction (hI : IsInvariant Inv) (h : Reaches answer start occasions s)
    (hjob : start.worker.job = .waiting) (hsound : start.worker.machine.IsSound)
    (hstart : Inv [] start.worker start.notices) : Holds Inv occasions s := by
  induction h with
  | start => exact ⟨hstart, hsound, fun c rest p hp => by rw [hjob] at hp; cases hp⟩
  | rouse _ _ o ih => exact hI.rouse ih o
  | attempt _ ih => exact hI.attempt ih
  | stop _ _ ih => exact ⟨hI.job _ ih.inv, ih.sound, nofun⟩

end

end Shift

end Conductor

end VoiceTurn
