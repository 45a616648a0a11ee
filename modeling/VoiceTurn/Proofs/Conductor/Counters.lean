import VoiceTurn.Proofs.Conductor.Announcements

/-!
# The counters of a worker

Every turn that has been started is completed, abandoned, replaced or still under way, and every
event taken from the queue is accepted or discarded. `Balanced` is the balance with the phase of the
machine in it: the phase tells how many events of the present turn have been accepted, which gives
the bounds of four events a turn from both sides. There is one lemma for each act of the worker.
-/

namespace VoiceTurn

namespace Phase

/-- Every accepted event brings a turn one `Phase.rank` further. -/
lemma rank_following {p : Phase} {c : Cue} (h : c ∈ p.awaited) : p.following.rank = p.rank + 1 := by
  cases p with
  | responding => exact absurd h List.not_mem_nil
  | idle | listening | transcribing | recognizing => rfl

lemma rank_le (p : Phase) : p.rank ≤ 4 := by cases p <;> decide

end Phase

namespace Conductor

/-- Whether an occasion takes an event from the queue, and no `deadline`. -/
def Occasion.isEvent : Occasion → Bool
  | event .. => true
  | deadline _ => false

/-- Whether a notice is a `publishFailed`. -/
def Notice.isFailure : Notice → Bool
  | publishFailed .. => true
  | _ => false

def Tally.over (t : Tally) : Nat := t.completed + t.stalls + t.interrupts

/-- The counters of `Tally` balance for a machine that has been given `events`, after so many
`failures`: turns are over or under way, a turn that is completed has had four events, and no turn
has had more. -/
structure Balanced (m : Machine) (t : Tally) (events failures : Nat) : Prop where
  numbered : t.started = m.turns
  turns : t.started = t.over + if m.phase = .idle then 0 else 1
  events : t.accepted + t.discarded = events
  atLeast : 4 * t.completed + m.phase.rank ≤ t.accepted
  atMost : t.accepted ≤ 4 * t.over + m.phase.rank
  failures : t.publishFailures = failures

namespace Balanced

variable {m : Machine} {t : Tally} {events failures : Nat}

lemma accept (h : Balanced m t events failures) (hm : m.IsSound) {c : Cue}
    (hc : c ∈ m.phase.awaited) (now : Nat) :
    Balanced (m.accept now)
      { t with
        accepted := t.accepted + 1
        started := if m.phase = .idle then t.started + 1 else t.started }
      (events + 1) failures := by
  obtain ⟨hnumbered, hturns, hevents, hleast, hmost, hfailures⟩ := h
  have hphase : (m.accept now).phase = m.phase.following := rfl
  have hrank := Phase.rank_following hc
  unfold Tally.over at hturns hmost
  constructor
  · rw [hm.turns_accept, hnumbered]
  · -- the turn under way is either the one that begins or the one that goes on
    rw [hphase, if_neg m.phase.following_ne_idle]
    dsimp only [Tally.over]
    split at hturns
    · rw [if_pos ‹_›]
      omega
    · rw [if_neg ‹_›]
      omega
  · dsimp only
    omega
  · rw [hphase, hrank]
    dsimp only
    omega
  · rw [hphase, hrank]
    dsimp only [Tally.over]
    omega
  · exact hfailures

lemma discard (h : Balanced m t events failures) :
    Balanced m { t with discarded := t.discarded + 1 } (events + 1) failures := by
  have hevents : t.accepted + (t.discarded + 1) = events + 1 := by rw [← h.events, Nat.add_assoc]
  exact { h with events := hevents }

lemma fail (h : Balanced m t events failures) :
    Balanced m { t with publishFailures := t.publishFailures + 1 } events (failures + 1) :=
  { h with failures := congrArg (· + 1) h.failures }

/-- The turn under way comes to its end, and is counted by `Tally.over`. Completed turns must have
had their four events. -/
lemma clear (h : Balanced m t events failures) (hm : m.phase ≠ .idle) {t' : Tally}
    (hover : t'.over = t.over + 1) (hcompleted : 4 * t'.completed ≤ t.accepted)
    (hstarted : t'.started = t.started) (haccepted : t'.accepted = t.accepted)
    (hdiscarded : t'.discarded = t.discarded)
    (hpublishFailures : t'.publishFailures = t.publishFailures) :
    Balanced m.clear t' events failures := by
  obtain ⟨hnumbered, hturns, hevents, hleast, hmost, hfailures⟩ := h
  have hrank := m.phase.rank_le
  rw [if_neg hm] at hturns
  constructor
  · rw [hstarted, hnumbered, Machine.turns_clear]
  · rw [hstarted, hover, hturns, Machine.phase_clear, if_pos rfl]
  · rw [haccepted, hdiscarded, hevents]
  · rw [haccepted, Machine.phase_clear]
    exact hcompleted
  · rw [haccepted, hover, Machine.phase_clear]
    simp only [Phase.rank]
    omega
  · rw [hpublishFailures, hfailures]

lemma stall (h : Balanced m t events failures) (hm : m.phase ≠ .idle) :
    Balanced m.clear { t with stalls := t.stalls + 1 } events failures := by
  have hleast := h.atLeast
  refine h.clear hm ?_ ?_ rfl rfl rfl rfl
  · dsimp only [Tally.over]
    omega
  · dsimp only
    omega

lemma complete (h : Balanced m t events failures) (hm : m.phase = .responding) :
    Balanced m.clear { t with completed := t.completed + 1 } events failures := by
  have hleast := h.atLeast
  rw [hm, Phase.rank] at hleast
  refine h.clear (by rw [hm]; decide) ?_ ?_ rfl rfl rfl rfl
  · dsimp only [Tally.over]
    omega
  · dsimp only
    omega

/-- Replacing a turn is `Machine.clear`, and then `Machine.accept` for the wake word. -/
lemma interrupt (h : Balanced m t events failures) (hm : m.phase ≠ .idle) (now : Nat) :
    Balanced (m.clear.accept now)
      { t with
        accepted := t.accepted + 1
        started := t.started + 1
        interrupts := t.interrupts + 1 } (events + 1) failures := by
  have hleast := h.atLeast
  have hclear : Balanced m.clear { t with interrupts := t.interrupts + 1 } events failures := by
    refine h.clear hm ?_ ?_ rfl rfl rfl rfl
    · dsimp only [Tally.over]
      omega
    · dsimp only
      omega
  have hwake : Cue.wakeDetected ∈ m.clear.phase.awaited := List.mem_singleton_self _
  exact hclear.accept m.isSound_clear hwake now

lemma accepted_le (h : Balanced m t events failures) : t.accepted ≤ 4 * t.started := by
  have hmost := h.atMost
  have hrank := m.phase.rank_le
  rw [h.turns]
  by_cases hphase : m.phase = .idle
  · rw [if_pos hphase]
    rw [hphase, Phase.rank] at hmost
    exact hmost
  · rw [if_neg hphase]
    omega

end Balanced

namespace Shift

/-- Every `Act` keeps the counters `Balanced`. -/
lemma isInvariant_balanced : IsInvariant fun occasions w notices =>
    Balanced w.machine w.tally (occasions.countP Occasion.isEvent)
      (notices.countP Notice.isFailure) where
  job _ h := h
  act {occasions w notices o w' new} hw h hact := by
    rw [List.countP_append, List.countP_append]
    cases hact with
    | @accept e now he =>
      have hquiet : List.countP Notice.isFailure
          ((if w.machine.phase = Phase.idle then [.sessionStarted w.machine.turnForRule.1]
            else []) ++ [.phaseChanged w.machine.phase w.machine.phase.following]) = 0 := by
        split <;> rfl
      rw [hquiet]
      exact h.accept hw he now
    | @interrupt e s now hs =>
      exact h.interrupt (Machine.phase_of_session hs.1 ▸ (hw s hs.1).1) now
    | discard e now reason => exact h.discard
    | @stall s now hs => exact h.stall (Machine.phase_of_session hs ▸ (hw s hs).1)
    | rest now => exact h
    | note c topic result =>
      cases result with
      | ok _ => exact h
      | error f => exact h.fail
    | @close s hs hresponding =>
      exact h.complete ((Machine.phase_of_session hs).trans hresponding)

/-- The balances of `Worker.tally` at every point of a shift: the turns started are those that are
over and the one on display; every event taken is accepted or discarded; a turn has at most four of
the accepted ones, and a completed one has four; the failures are those announced. -/
theorem counters_balance {registry : Topic.Registry} {qos : Bus.Qos} {policy : SecondWake}
    {patience : Nat} {composer : Response.Composer} {answer : Nat → Except Bus.Failure Unit}
    {occasions : List Occasion} {s : Shift}
    (h : (fresh registry qos (.fresh policy patience composer)).Reaches answer occasions s) :
    let t := s.worker.tally
    t.started =
      t.completed + t.stalls + t.interrupts + (if s.worker.shown.turn.isSome then 1 else 0) ∧
    t.started = (s.notices.filterMap Notice.started?).getLast?.getD 0 ∧
    t.accepted + t.discarded = occasions.countP Occasion.isEvent ∧
    4 * t.completed ≤ t.accepted ∧ t.accepted ≤ 4 * t.started ∧
    t.publishFailures = s.notices.countP Notice.isFailure := by
  intro t
  have hfresh := Machine.isSound_fresh policy patience composer
  have hshown := (h.induction isInvariant_shown rfl hfresh rfl).inv
  have htold := (h.induction isInvariant_told rfl hfresh ⟨0, rfl, rfl⟩).inv
  obtain ⟨hbalanced, hsound, -⟩ :=
    h.induction isInvariant_balanced rfl hfresh ⟨rfl, rfl, rfl, Nat.le_refl 0, Nat.le_refl 0, rfl⟩
  refine ⟨?_, ?_, hbalanced.events, Nat.le_of_add_right_le hbalanced.atLeast,
    hbalanced.accepted_le, hbalanced.failures⟩
  · have hopen : (if s.worker.shown.turn.isSome then 1 else 0) =
        if s.worker.machine.phase = .idle then 0 else 1 := by
      rw [hshown, Worker.showing, Option.isSome_map]
      cases hs : s.worker.machine.session with
      | none => simp [Machine.phase_of_no_session hs]
      | some session => simp [Machine.phase_of_session hs, (hsound session hs).1]
    rw [hopen]
    exact hbalanced.turns
  · -- the turns are numbered from one, so the last number is how many there are
    rw [htold.started hsound, ← hbalanced.numbered]
    cases t.started with
    | zero => rfl
    | succ n => simp [List.range'_1_concat, Nat.add_comm]

/-- A turn in which the last command fails, seen before and after `turnCompleted`. -/
theorem counters_balance_at_failure :
    let start := fresh .stock .atMostOnce (.fresh .ignore 30000 (.ofPhrases {}))
    let answer : Nat → Except Bus.Failure Unit := fun n => if n = 6 then .error .closed else .ok ()
    let before : List Occasion :=
      [.event ⟨.wakeDetected, []⟩ 0, .event ⟨.commandStopped, []⟩ 4000,
        .event ⟨.wakeDetected, []⟩ 4500, .event ⟨.textCaptured, [104, 105]⟩ 5000]
    let last : Occasion := .event ⟨.intentRecognized, [123, 125]⟩ 6000
    let s := ((start.run answer before).rouse last).attempt answer
    let t := s.worker.tally
    start.Reaches answer (before ++ [last]) s ∧
    t.completed = 1 ∧ t.publishFailures = 1 ∧ t.discarded = 1 ∧
    t.started =
      t.completed + t.stalls + t.interrupts + (if s.worker.shown.turn.isSome then 1 else 0) ∧
    t.started = (s.notices.filterMap Notice.started?).getLast?.getD 0 ∧
    t.accepted + t.discarded = (before ++ [last]).countP Occasion.isEvent ∧
    4 * t.completed ≤ t.accepted ∧ t.accepted ≤ 4 * t.started ∧
    t.publishFailures = s.notices.countP Notice.isFailure := by
  intro start answer before last s t
  have hbefore : start.Reaches answer before (start.run answer before) ∧
      (start.run answer before).worker.job = .waiting := reaches_run rfl before
  have h : start.Reaches answer (before ++ [last]) s := (hbefore.1.rouse hbefore.2 last).attempt
  exact ⟨h, by decide +kernel, by decide +kernel, by decide +kernel, counters_balance h⟩

end Shift

end Conductor

end VoiceTurn
