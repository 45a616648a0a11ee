import Mathlib.Data.List.Induction
import Mathlib.Tactic.Lemma
import Mathlib.Tactic.SplitIfs
import VoiceTurn.Tap.Basic

/-!
# What flows through a tap

A tap gets messages, goes on, and is told to drain, in any order (`Tap.Move`). An account of it says
which records have come and which have been passed to the sink. However it goes, the records that
found room are those that have been passed on, in their order, and then those in the queue, and the
others have been counted (`Account.Balances`). A shelf behind the tap holds the latest of the
records that have been passed on (`Shelf.records_foldl_add`).
-/

namespace VoiceTurn.Tap

/-! ## Sinks -/

namespace Shelf

lemma capacity_foldl_add (s : Shelf) (rs : List Record) :
    (rs.foldl add s).capacity = s.capacity := by
  induction rs generalizing s with
  | nil => rfl
  | cons r rs ih => exact ih (s.add r)

/-- A `Shelf` that has been given `rs` holds the latest of them, as many as it has places, oldest
first. -/
lemma records_foldl_add (capacity : Nat) (rs : List Record) :
    (rs.foldl add (.withCapacity capacity)).records = rs.drop (rs.length - max capacity 1) := by
  induction rs using List.reverseRecOn with
  | nil => exact List.drop_nil.symm
  | append_singleton rs r ih =>
    have hcapacity : (rs.foldl add (.withCapacity capacity)).capacity = max capacity 1 :=
      capacity_foldl_add _ rs
    rw [List.foldl_append, List.foldl_cons, List.foldl_nil, List.length_append,
      List.length_singleton]
    generalize rs.foldl add (.withCapacity capacity) = s at ih hcapacity
    have hlength : s.records.length = min rs.length (max capacity 1) := by
      rw [ih, List.length_drop]
      omega
    unfold add
    rw [hlength, hcapacity]
    simp only
    split_ifs with hfull
    · -- the shelf is full, so the oldest record makes room for the new one
      rw [ih, List.drop_drop, List.drop_append_of_le_length (by omega)]
      congr 2
      omega
    · rw [ih, List.drop_append_of_le_length (by omega)]
      congr 2
      omega

end Shelf

namespace Sink

/-- Repeated `Sink.record`, without the answers. -/
def recordAll (s : Sink) (rs : List Record) : Sink := rs.foldl (fun s r => (s.record r).2) s

lemma recordAll_shelf (s : Shelf) (rs : List Record) :
    (Sink.shelf s).recordAll rs = .shelf (rs.foldl Shelf.add s) := by
  induction rs generalizing s with
  | nil => rfl
  | cons r rs ih => exact ih (s.add r)

lemma recordAll_concat (s : Sink) (rs : List Record) (r : Record) :
    s.recordAll (rs ++ [r]) = ((s.recordAll rs).record r).2 := List.foldl_append

/-- The sink answers every record, whatever it has been given before; a sink that does not leaves
its tap `stuck`. -/
def AnswersAlways (s : Sink) : Prop := ∀ rs r, ((s.recordAll rs).record r).1.isSome = true

lemma answersAlways_shelf (s : Shelf) : (Sink.shelf s).AnswersAlways := by
  intro rs r
  rw [recordAll_shelf]
  rfl

end Sink

/-! ## Moves -/

variable {t t' : Tap}

/-- Everything that `Tap.step?` can do: the oldest record goes to the sink, and the tap is `stuck`
unless that answers, or a tap that is `draining` stops with an empty queue. -/
lemma step?_cases (h : t.step? = some t') :
    (∃ r queue stage, t.queue = r :: queue ∧ t.stage ≠ .stopped ∧
      stage = (if (t.sink.record r).1.isSome then t.stage else .stuck) ∧
      t' = { t with queue, sink := (t.sink.record r).2, stage }) ∨
    (t.queue = [] ∧ t.stage = .draining ∧ t' = { t with stage := .stopped }) := by
  obtain ⟨capacity, sink, queue, dropped, stage⟩ := t
  cases stage with
  | stopped | stuck => cases queue <;> cases h
  | running =>
    cases queue with
    | nil => cases h
    | cons r queue =>
      cases h
      exact .inl ⟨r, queue, _, rfl, nofun, rfl, rfl⟩
  | draining =>
    cases queue with
    | nil =>
      cases h
      exact .inr ⟨rfl, rfl, rfl⟩
    | cons r queue =>
      cases h
      exact .inl ⟨r, queue, _, rfl, nofun, rfl, rfl⟩

/-- What can happen to a tap: `Tap.offer`, `Tap.step?` or `Tap.drain`. -/
inductive Move where
  | offer (r : Record)
  | step
  | drain

/-- The record of an `offer`. -/
def Move.offered? : Move → Option Record
  | offer r => some r
  | step | drain => none

@[simp] lemma queue_drain (t : Tap) : t.drain.queue = t.queue := by
  unfold drain
  split_ifs <;> rfl

lemma stage_drain (h : t.stage = .running) : t.drain.stage = .draining := by
  rw [drain, if_pos h]

/-! ## Accounts -/

/-- How many more records `Tap.offer` would put into the queue. -/
def free (t : Tap) : Nat := t.capacity - t.queue.length

section
variable (arrivals : List (Record × Nat))

/-- The records that found places `free` when they came. -/
def entered : List Record := (arrivals.filter (0 < ·.2)).map Prod.fst

/-- The records that found no place `free`. -/
def lost : List Record := (arrivals.filter (·.2 = 0)).map Prod.fst

lemma entered_concat (r : Record) (free : Nat) :
    entered (arrivals ++ [(r, free)]) = entered arrivals ++ if 0 < free then [r] else [] := by
  rw [entered, List.filter_append, List.map_append]
  cases free <;> rfl

lemma lost_concat (r : Record) (free : Nat) :
    lost (arrivals ++ [(r, free)]) = lost arrivals ++ if 0 < free then [] else [r] := by
  rw [lost, List.filter_append, List.map_append]
  cases free <;> rfl

lemma length_entered_add_length_lost :
    (entered arrivals).length + (lost arrivals).length = arrivals.length := by
  induction arrivals with
  | nil => rfl
  | cons p arrivals ih =>
    obtain ⟨r, free⟩ := p
    cases free with
    | zero =>
      show (entered arrivals).length + ((lost arrivals).length + 1) = arrivals.length + 1
      omega
    | succ free =>
      show (entered arrivals).length + 1 + (lost arrivals).length = arrivals.length + 1
      omega

end

/-- A tap with what has been written down about its `Move`s. -/
structure Account where
  tap : Tap
  /-- The records of all `offer`s that the tap had not stopped for, each with the places that were
  `free`. -/
  arrivals : List (Record × Nat) := []
  /-- The records that `Tap.step?` has passed to the sink. -/
  given : List Record := []

namespace Account

/-- Makes a `Move` and writes it down. -/
def move (a : Account) : Move → Account
  | .offer r => { a with
      tap := a.tap.offer r
      arrivals := if a.tap.stage = .stopped then a.arrivals else a.arrivals ++ [(r, a.tap.free)] }
  | .step =>
    match a.tap.step? with
    | some tap => { a with tap, given := a.given ++ a.tap.queue.take 1 }
    | none => a
  | .drain => { a with tap := a.tap.drain }

def moveAll (a : Account) (moves : List Move) : Account := moves.foldl move a

/-- The invariant of an `Account` that began with an empty tap: what has `entered` is what was
`given` to the sink, followed by the queue, and `dropped` counts what was `lost`. -/
structure Balances (capacity : Nat) (sink : Sink) (a : Account) : Prop where
  capacity : a.tap.capacity = max capacity 1
  room : a.tap.queue.length ≤ a.tap.capacity
  flow : entered a.arrivals = a.given ++ a.tap.queue
  sink : a.tap.sink = sink.recordAll a.given
  dropped : a.tap.dropped = (lost a.arrivals).length
  emptied : a.tap.stage = .stopped → a.tap.queue = []

variable {capacity : Nat} {sink : Sink} {a : Account}

lemma balances_withCapacity (capacity : Nat) (sink : Sink) :
    Balances capacity sink { tap := .withCapacity capacity sink } where
  capacity := rfl
  room := Nat.zero_le _
  flow := rfl
  sink := rfl
  dropped := rfl
  emptied := fun _ => rfl

lemma Balances.length_arrivals (h : a.Balances capacity sink) :
    a.arrivals.length = a.given.length + a.tap.queue.length + a.tap.dropped := by
  rw [← length_entered_add_length_lost, h.flow, h.dropped, List.length_append]

lemma Balances.offer (h : a.Balances capacity sink) (r : Record) :
    (a.move (.offer r)).Balances capacity sink := by
  unfold move
  by_cases hstopped : a.tap.stage = .stopped
  · simp only [Tap.offer, if_pos hstopped]
    exact h
  have hnot (hs : a.tap.stage = .stopped) (queue : List Record) : queue = [] := absurd hs hstopped
  simp only [Tap.offer, if_neg hstopped]
  split_ifs with hroom
  · have hfree : 0 < a.tap.free := Nat.sub_pos_of_lt hroom
    refine ⟨h.capacity, ?_, ?_, h.sink, ?_, fun hs => hnot hs _⟩
    · rw [List.length_append]
      exact hroom
    · rw [entered_concat, if_pos hfree, h.flow, List.append_assoc]
    · rw [lost_concat, if_pos hfree, List.append_nil, h.dropped]
  · have hfull : ¬ 0 < a.tap.free := fun hfree => hroom (Nat.lt_of_sub_pos hfree)
    refine ⟨h.capacity, h.room, ?_, h.sink, ?_, fun hs => hnot hs _⟩
    · rw [entered_concat, if_neg hfull, List.append_nil, h.flow]
    · rw [lost_concat, if_neg hfull, List.length_append, ← h.dropped]
      rfl

lemma Balances.step (h : a.Balances capacity sink) : (a.move .step).Balances capacity sink := by
  unfold move
  cases hstep : a.tap.step? with
  | none => exact h
  | some tap =>
    rcases step?_cases hstep with ⟨r, queue, stage, hqueue, hgoing, hstage, rfl⟩ | ⟨hqueue, -, rfl⟩
    · have hroom := h.room
      have hflow := h.flow
      rw [hqueue] at hroom hflow
      simp only [hqueue, List.take_succ_cons, List.take_zero]
      refine ⟨h.capacity, Nat.le_of_succ_le hroom, ?_, ?_, h.dropped, ?_⟩
      · rw [hflow, List.append_assoc]
        rfl
      · rw [Sink.recordAll_concat, ← h.sink]
      · -- a step that takes a record does not stop the tap
        rintro rfl
        split_ifs at hstage
        exact absurd hstage.symm hgoing
    · simp only [hqueue, List.take_nil, List.append_nil]
      have hflow := h.flow
      rw [hqueue] at hflow
      exact ⟨h.capacity, Nat.zero_le _, hflow, h.sink, h.dropped, fun _ => rfl⟩

lemma Balances.drain (h : a.Balances capacity sink) : (a.move .drain).Balances capacity sink := by
  by_cases hrunning : a.tap.stage = .running
  · have hmove : a.move .drain = { a with tap := { a.tap with stage := .draining } } := by
      simp only [move, Tap.drain, if_pos hrunning]
    rw [hmove]
    exact ⟨h.capacity, h.room, h.flow, h.sink, h.dropped, nofun⟩
  · have hmove : a.move .drain = a := by
      simp only [move, Tap.drain, if_neg hrunning]
    rwa [hmove]

/-- An `Account` goes on to balance through all `Move`s. -/
lemma Balances.moveAll (h : a.Balances capacity sink) (moves : List Move) :
    (a.moveAll moves).Balances capacity sink := by
  induction moves generalizing a with
  | nil => exact h
  | cons move moves ih =>
    cases move with
    | offer r => exact ih (h.offer r)
    | step => exact ih h.step
    | drain => exact ih h.drain

/-! ## Before and after a tap is told to drain -/

lemma moveAll_append (a : Account) (moves moves' : List Move) :
    a.moveAll (moves ++ moves') = (a.moveAll moves).moveAll moves' := List.foldl_append

lemma tap_moveAll_offers (a : Account) (rs : List Record) :
    (a.moveAll (rs.map .offer)).tap = rs.foldl Tap.offer a.tap := by
  induction rs generalizing a with
  | nil => rfl
  | cons r rs ih => exact ih (a.move (.offer r))

/-- Without an `offer` nothing arrives. -/
lemma arrivals_moveAll {moves : List Move} (hmoves : ∀ m ∈ moves, m.offered? = none) :
    (a.moveAll moves).arrivals = a.arrivals := by
  induction moves generalizing a with
  | nil => rfl
  | cons move moves ih =>
    refine (ih fun m hm => hmoves m (List.mem_cons_of_mem _ hm)).trans ?_
    cases move with
    | offer r => cases hmoves _ List.mem_cons_self
    | step =>
      unfold Account.move
      cases a.tap.step? <;> rfl
    | drain => rfl

/-- The tap has not been told to `drain`; it may be `stuck`. -/
def IsOnDuty (a : Account) : Prop := a.tap.stage = .running ∨ a.tap.stage = .stuck

/-- Without a `drain` the tap stays on duty, and every `offer` arrives. -/
lemma IsOnDuty.move (h : a.IsOnDuty) {m : Move} (hm : m ≠ .drain) :
    (a.move m).IsOnDuty ∧
      (a.move m).arrivals.map Prod.fst = a.arrivals.map Prod.fst ++ m.offered?.toList := by
  have hgoing : a.tap.stage ≠ .stopped := by
    rcases h with h | h <;> rw [h] <;> nofun
  cases m with
  | offer r =>
    refine ⟨?_, ?_⟩
    · have hstage : (a.move (.offer r)).tap.stage = a.tap.stage := by
        simp only [Account.move, Tap.offer, if_neg hgoing]
        split_ifs <;> rfl
      unfold IsOnDuty
      rwa [hstage]
    · simp only [Account.move, if_neg hgoing, List.map_append]
      rfl
  | step =>
    unfold Account.move
    cases hstep : a.tap.step? with
    | none => exact ⟨h, (List.append_nil _).symm⟩
    | some tap =>
      refine ⟨?_, (List.append_nil _).symm⟩
      rcases step?_cases hstep with ⟨r, queue, stage, -, -, hstage, rfl⟩ | ⟨-, hdraining, -⟩
      · show stage = .running ∨ stage = .stuck
        split_ifs at hstage
        · exact hstage ▸ h
        · exact .inr hstage
      · rcases h with h | h <;> rw [h] at hdraining <;> cases hdraining
  | drain => exact absurd rfl hm

lemma IsOnDuty.moveAll (h : a.IsOnDuty) {moves : List Move} (hmoves : .drain ∉ moves) :
    (a.moveAll moves).IsOnDuty ∧ (a.moveAll moves).arrivals.map Prod.fst =
      a.arrivals.map Prod.fst ++ moves.filterMap Move.offered? := by
  induction moves generalizing a with
  | nil => exact ⟨h, (List.append_nil _).symm⟩
  | cons move moves ih =>
    obtain ⟨hnot, hrest⟩ := List.ne_and_not_mem_of_not_mem_cons hmoves
    obtain ⟨hduty, harrivals⟩ := h.move (Ne.symm hnot)
    obtain ⟨hduty', harrivals'⟩ := ih hduty hrest
    refine ⟨hduty', harrivals'.trans ?_⟩
    rw [harrivals, List.append_assoc]
    cases move <;> rfl

section
variable (h : a.Balances capacity sink) (hanswers : sink.AnswersAlways)
include h hanswers

/-- Only a sink that does not answer makes a tap `stuck`. -/
lemma Balances.move_ne_stuck (hstage : a.tap.stage ≠ .stuck) (m : Move) :
    (a.move m).tap.stage ≠ .stuck := by
  cases m with
  | offer r =>
    unfold Account.move Tap.offer
    split_ifs <;> exact hstage
  | step =>
    unfold Account.move
    cases hstep : a.tap.step? with
    | none => exact hstage
    | some tap =>
      rcases step?_cases hstep with ⟨r, queue, stage, -, -, heq, rfl⟩ | ⟨-, -, rfl⟩
      · rw [h.sink, if_pos (hanswers _ _)] at heq
        exact heq ▸ hstage
      · nofun
  | drain =>
    simp only [Account.move, Tap.drain]
    split_ifs
    · nofun
    · exact hstage

lemma Balances.moveAll_ne_stuck (hstage : a.tap.stage ≠ .stuck) (moves : List Move) :
    (a.moveAll moves).tap.stage ≠ .stuck := by
  induction moves generalizing a with
  | nil => exact hstage
  | cons m moves ih => exact ih (h.moveAll [m]) (h.move_ne_stuck hanswers hstage m)

/-- A tap that is `draining` stops after one step for each record in its queue and one more, which
is where `AnswersAlways` is needed. -/
lemma Balances.stops (hstage : a.tap.stage = .draining) :
    (a.moveAll (.replicate (a.tap.queue.length + 1) .step)).tap.stage = .stopped := by
  induction hqueue : a.tap.queue generalizing a with
  | nil =>
    have hstep : a.tap.step? = some { a.tap with stage := .stopped } := by
      obtain ⟨⟨_, _, _, _, _⟩, _, _⟩ := a
      cases hstage
      cases hqueue
      rfl
    have hmove : (a.move .step).tap.stage = .stopped := by
      unfold Account.move
      rw [hstep]
    exact hmove
  | cons r queue ih =>
    have hanswer : ((a.tap.sink.record r).1.isSome) = true := by
      rw [h.sink]
      exact hanswers _ _
    have hstep : a.tap.step? =
        some { a.tap with queue, sink := (a.tap.sink.record r).2, stage := .draining } := by
      unfold Tap.step?
      rw [hstage, hqueue]
      simp only [hanswer, if_true]
    have hmove : (a.move .step).tap =
        { a.tap with queue, sink := (a.tap.sink.record r).2, stage := .draining } := by
      unfold Account.move
      rw [hstep]
    have hrest : (a.move .step).tap.queue = queue := by rw [hmove]
    have hdraining : (a.move .step).tap.stage = .draining := by rw [hmove]
    exact ih h.step hdraining hrest

end

end Account

end VoiceTurn.Tap
