import VoiceTurn.Proofs.Conductor.Acts

/-!
# What a worker announces

A worker keeps the phase and the turn of its machine on display, and announces every change. At
every point of a shift the display is that of the machine, and the notices tell the run of the
machine: the changes of the phase form a chain from idle to the phase on display, and the turns are
opened and ended one after the other. `Chained` and `Told` say so of a list of notices; each act of
the worker continues the chain and the tale.
-/

namespace VoiceTurn.Conductor

inductive Milestone where
  | opened (turn : Nat)
  | ended (turn : Nat)
  deriving DecidableEq, Repr

namespace Notice

def change? : Notice → Option (Phase × Phase)
  | phaseChanged before after => some (before, after)
  | _ => none

def started? : Notice → Option Nat
  | sessionStarted turn => some turn
  | _ => none

/-- The `Milestone` that a notice tells of: a turn ends when it is completed, abandoned or
replaced. -/
def milestone? : Notice → Option Milestone
  | sessionStarted turn => some (.opened turn)
  | turnCompleted turn | sessionStalled turn _ _ | sessionInterrupted turn _ => some (.ended turn)
  | _ => none

end Notice

/-! ## Reports are no part of the tale -/

section
variable (c : Command) (topic : String) (result : Except Bus.Failure Unit)

@[simp] lemma change?_report : (report c topic result).change? = none := by cases result <;> rfl

@[simp] lemma started?_report : (report c topic result).started? = none := by cases result <;> rfl

@[simp] lemma milestone?_report : (report c topic result).milestone? = none := by
  cases result <;> rfl

end

/-! ## The phases -/

def changesIn (notices : List Notice) : List (Phase × Phase) := notices.filterMap Notice.change?

/-- The changes of the phase form a chain from `idle` to `p`, and none of them stays where it is. -/
def Chained (notices : List Notice) (p : Phase) : Prop :=
  (changesIn notices).map Prod.fst ++ [p] = .idle :: (changesIn notices).map Prod.snd ∧
    ∀ c ∈ changesIn notices, c.1 ≠ c.2

namespace Chained

variable {notices new : List Notice} {p q : Phase}

lemma append_of_no_change (h : Chained notices p) (hnew : changesIn new = []) :
    Chained (notices ++ new) p := by
  have happend : changesIn (notices ++ new) = changesIn notices := by
    rw [changesIn, List.filterMap_append, ← changesIn, ← changesIn, hnew, List.append_nil]
  unfold Chained
  rwa [happend]

lemma append_of_change (h : Chained notices p) (hnew : changesIn new = [(p, q)]) (hpq : p ≠ q) :
    Chained (notices ++ new) q := by
  have happend : changesIn (notices ++ new) = changesIn notices ++ [(p, q)] := by
    rw [changesIn, List.filterMap_append, ← changesIn, ← changesIn, hnew]
  obtain ⟨hchain, hmoves⟩ := h
  unfold Chained
  rw [happend, List.map_append, List.map_append]
  constructor
  · -- the new change begins at the end of the chain
    show ((changesIn notices).map Prod.fst ++ [p]) ++ [q] = _
    rw [hchain]
    rfl
  · intro c hc
    rcases List.mem_append.1 hc with hc | hc
    · exact hmoves c hc
    · obtain rfl := List.mem_singleton.1 hc
      exact hpq

end Chained

/-! ## The turns -/

def milestonesIn (notices : List Notice) : List Milestone := notices.filterMap Notice.milestone?

/-- The milestones of the first `n` turns, each opened and ended before the next one. -/
def wholeTurns (n : Nat) : List Milestone :=
  (List.range' 1 n).flatMap fun turn => [.opened turn, .ended turn]

lemma wholeTurns_succ (n : Nat) :
    wholeTurns (n + 1) = wholeTurns n ++ [.opened (n + 1), .ended (n + 1)] := by
  rw [wholeTurns, List.range'_1_concat, List.flatMap_append, Nat.add_comm 1 n]
  rfl

/-- The notices tell of `wholeTurns`, and then of the opening of the session under way. -/
def Told (notices : List Notice) (m : Machine) : Prop :=
  ∃ past, m.turns = past + m.session.toList.length ∧
    milestonesIn notices = wholeTurns past ++ m.session.toList.map fun s => .opened s.turn

namespace Told

variable {notices new : List Notice} {m m' : Machine}

lemma milestonesIn_append (notices new : List Notice) :
    milestonesIn (notices ++ new) = milestonesIn notices ++ milestonesIn new :=
  List.filterMap_append

lemma append_of_no_milestone (h : Told notices m) (hnew : milestonesIn new = []) :
    Told (notices ++ new) m := by
  obtain ⟨past, hturns, hmilestones⟩ := h
  exact ⟨past, hturns, by rw [milestonesIn_append, hnew, List.append_nil, hmilestones]⟩

/-- The `Machine.clear` of a session is told as the end of its turn. -/
lemma append_of_ended (h : Told notices m) (hm : m.IsSound) {s : Session} (hs : m.session = some s)
    (hnew : milestonesIn new = [.ended s.turn]) : Told (notices ++ new) m.clear := by
  obtain ⟨past, hturns, hmilestones⟩ := h
  have hturn : s.turn = past + 1 := by
    rw [(hm s hs).2, hturns, hs]
    rfl
  refine ⟨past + 1, ?_, ?_⟩
  · show m.turns = _
    rw [hturns, hs]
    rfl
  · rw [milestonesIn_append, hmilestones, hnew, hs, wholeTurns_succ]
    simp [Machine.clear, hturn]

/-- The first `Machine.accept` of a turn is told as its opening. -/
lemma append_of_opened (h : Told notices m) (now : Nat) (hs : m.session = none)
    (hnew : milestonesIn new = [.opened (m.turns + 1)]) :
    Told (notices ++ new) (m.accept now) := by
  obtain ⟨past, hturns, hmilestones⟩ := h
  refine ⟨past, ?_, ?_⟩
  · rw [Machine.turns_accept, Machine.turnForRule_of_no_session hs, hturns, hs]
    rfl
  · rw [milestonesIn_append, hmilestones, hnew, hs, Machine.session_accept,
      Machine.turnForRule_of_no_session hs]
    simp

/-- Any further `Machine.accept` is no milestone. -/
lemma append_of_continued (h : Told notices m) (now : Nat) {s : Session} (hs : m.session = some s)
    (hnew : milestonesIn new = []) : Told (notices ++ new) (m.accept now) := by
  obtain ⟨past, hturns, hmilestones⟩ := h
  refine ⟨past, ?_, ?_⟩
  · rw [Machine.turns_accept, Machine.turnForRule_of_session hs, hturns, hs]
    rfl
  · rw [milestonesIn_append, hmilestones, hnew, hs, Machine.session_accept,
      Machine.turnForRule_of_session hs]
    simp

/-- The turns that `started?` finds are numbered from one. -/
lemma started (h : Told notices m) (hm : m.IsSound) :
    notices.filterMap Notice.started? = List.range' 1 m.turns := by
  obtain ⟨past, hturns, hmilestones⟩ := h
  -- the openings are some of the milestones
  let opened? : Milestone → Option Nat := fun
    | .opened turn => some turn
    | .ended _ => none
  have hstarted : notices.filterMap Notice.started? = (milestonesIn notices).filterMap opened? := by
    rw [milestonesIn, List.filterMap_filterMap]
    congr 1
    funext n
    cases n <;> rfl
  have hwhole (n : Nat) : (wholeTurns n).filterMap opened? = List.range' 1 n := by
    induction n with
    | zero => rfl
    | succ n ih =>
      rw [wholeTurns_succ, List.filterMap_append, ih, List.range'_1_concat, Nat.add_comm 1 n]
      rfl
  rw [hstarted, hmilestones, List.filterMap_append, hwhole, hturns]
  cases hs : m.session with
  | none => simp
  | some s =>
    have hturn : s.turn = past + 1 := by
      rw [(hm s hs).2, hturns, hs]
      rfl
    simp [opened?, hturn, List.range'_1_concat, Nat.add_comm]

end Told

/-! ## Every act continues the chain and the tale -/

namespace Shift

lemma isInvariant_shown : IsInvariant fun _ w _ =>
    w.shown = Worker.showing w.machine.phase w.machine.session where
  job _ h := h
  act {_ w _ _ _ _} _ h hact := by
    cases hact with
    | accept | interrupt | stall | close => rfl
    | discard | rest => exact h
    | note c topic result => cases result <;> exact h

lemma isInvariant_chained : IsInvariant fun _ w notices => Chained notices w.machine.phase where
  job _ h := h
  act {_ w _ _ _ _} hw h hact := by
    cases hact with
    | accept now he =>
      refine h.append_of_change ?_ (Phase.ne_following he)
      split <;> rfl
    | interrupt now hs =>
      have hphase := Machine.phase_of_session hs.1
      refine h.append_of_change ?_ (hphase ▸ hs.phase_ne_listening)
      rw [hphase]
      rfl
    | discard | rest => exact h.append_of_no_change rfl
    | stall now hs =>
      have hphase := Machine.phase_of_session hs
      refine h.append_of_change ?_ (hphase ▸ (hw _ hs).1)
      rw [hphase]
      rfl
    | note c topic result =>
      rw [Worker.machine_noted]
      exact h.append_of_no_change (by simp [changesIn])
    | close hs hresponding =>
      have hphase := Machine.phase_of_session hs
      refine h.append_of_change ?_ (hphase ▸ (hw _ hs).1)
      rw [hphase, hresponding]
      rfl

lemma isInvariant_told : IsInvariant fun _ w notices => Told notices w.machine where
  job _ h := h
  act {_ w _ _ _ _} hw h hact := by
    cases hact with
    | accept now he =>
      cases hs : w.machine.session with
      | none =>
        refine h.append_of_opened now hs ?_
        rw [if_pos (Machine.phase_of_no_session hs), Machine.turnForRule_of_no_session hs]
        rfl
      | some s =>
        refine h.append_of_continued now hs ?_
        rw [if_neg (by rw [Machine.phase_of_session hs]; exact (hw s hs).1)]
        rfl
    | interrupt now hs =>
      -- the old turn ends first, and then the new one is opened on the cleared machine
      rename_i e s
      have hended : Told (_ ++ [.sessionInterrupted s.turn s.phase]) w.machine.clear :=
        h.append_of_ended hw hs.1 rfl
      have hopening : milestonesIn [.sessionStarted (w.machine.turns + 1),
          .phaseChanged s.phase .listening] = [.opened (w.machine.turns + 1)] := rfl
      have hopened := hended.append_of_opened now rfl hopening
      rwa [List.append_assoc] at hopened
    | discard | rest => exact h.append_of_no_milestone rfl
    | stall now hs => exact h.append_of_ended hw hs rfl
    | note c topic result =>
      rw [Worker.machine_noted]
      exact h.append_of_no_milestone (by simp [milestonesIn])
    | close hs hresponding => exact h.append_of_ended hw hs rfl

/-- At every point of a shift `Worker.shown` is the phase and the turn of the machine. The changes
in the notices form a chain from `idle` to the phase shown. The turns in them are numbered from one
and each is ended once before the next one is opened; only the last one may be under way. -/
theorem notices_mirror_machine {registry : Topic.Registry} {qos : Bus.Qos} {policy : SecondWake}
    {patience : Nat} {composer : Response.Composer} {answer : Nat → Except Bus.Failure Unit}
    {occasions : List Occasion} {s : Shift}
    (h : (fresh registry qos (.fresh policy patience composer)).Reaches answer occasions s) :
    let m := s.worker.machine
    let changes := s.notices.filterMap Notice.change?
    s.worker.shown.phase = m.phase ∧
    s.worker.shown.turn = m.session.map Session.turn ∧
    (s.worker.shown.turn = none ↔ s.worker.shown.phase = .idle) ∧
    changes.map Prod.fst ++ [s.worker.shown.phase] = .idle :: changes.map Prod.snd ∧
    (∀ c ∈ changes, c.1 ≠ c.2) ∧
    s.notices.filterMap Notice.started? = List.range' 1 m.turns ∧
    ∃ past, s.notices.filterMap Notice.milestone? =
      ((List.range' 1 past).flatMap fun turn => [.opened turn, .ended turn]) ++
        if s.worker.shown.turn.isSome then [.opened (past + 1)] else [] := by
  intro m changes
  have hfresh := Machine.isSound_fresh policy patience composer
  have hshown := (h.induction isInvariant_shown rfl hfresh rfl).inv
  have hchained := (h.induction isInvariant_chained rfl hfresh ⟨rfl, nofun⟩).inv
  obtain ⟨htold, hsound, -⟩ := h.induction isInvariant_told rfl hfresh ⟨0, rfl, rfl⟩
  have hphase : s.worker.shown.phase = m.phase := by rw [hshown]; rfl
  have hturn : s.worker.shown.turn = m.session.map Session.turn := by rw [hshown]; rfl
  -- `past` turns have ended, and the one shown, if any, comes next
  refine ⟨hphase, hturn, ?_, ?_, hchained.2, htold.started hsound, ?_⟩
  · rw [hturn, hphase, Option.map_eq_none_iff, hsound.phase_eq_idle_iff]
  · rw [hphase]
    exact hchained.1
  · obtain ⟨past, hturns, hmilestones⟩ := htold
    refine ⟨past, hmilestones.trans ?_⟩
    rw [hturn]
    cases hs : s.worker.machine.session with
    | none => rfl
    | some t =>
      have hpast : t.turn = past + 1 := by
        rw [(hsound t hs).2, hturns, hs]
        rfl
      rw [← hpast]
      rfl

/-- A turn that is interrupted in the phase `transcribing`, seen while the first command of the new
turn is on its way. -/
theorem notices_mirror_machine_at_interruption :
    let start := fresh .stock .atMostOnce (.fresh .interrupt 30000 (.ofPhrases {}))
    let answer : Nat → Except Bus.Failure Unit := fun n => if n = 2 then .error .closed else .ok ()
    let before : List Occasion :=
      [.event ⟨.wakeDetected, []⟩ 0, .event ⟨.commandTimedOut, []⟩ 9000]
    let second : Occasion := .event ⟨.wakeDetected, []⟩ 10000
    let s := ((start.run answer before).rouse second).attempt answer
    let m := s.worker.machine
    let changes := s.notices.filterMap Notice.change?
    start.Reaches answer (before ++ [second]) s ∧
    s.worker.shown.phase = m.phase ∧
    s.worker.shown.turn = m.session.map Session.turn ∧
    (s.worker.shown.turn = none ↔ s.worker.shown.phase = .idle) ∧
    changes.map Prod.fst ++ [s.worker.shown.phase] = .idle :: changes.map Prod.snd ∧
    (∀ c ∈ changes, c.1 ≠ c.2) ∧
    s.notices.filterMap Notice.started? = List.range' 1 m.turns ∧
    ∃ past, s.notices.filterMap Notice.milestone? =
      ((List.range' 1 past).flatMap fun turn => [.opened turn, .ended turn]) ++
        if s.worker.shown.turn.isSome then [.opened (past + 1)] else [] := by
  intro start answer before second s
  have hbefore : start.Reaches answer before (start.run answer before) ∧
      (start.run answer before).worker.job = .waiting := reaches_run rfl before
  have h : start.Reaches answer (before ++ [second]) s := (hbefore.1.rouse hbefore.2 second).attempt
  exact ⟨h, notices_mirror_machine h⟩

end Shift

end VoiceTurn.Conductor
