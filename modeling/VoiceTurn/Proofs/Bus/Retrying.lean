import Mathlib.Algebra.GroupWithZero.Nat
import Mathlib.Order.Bounds.Defs
import VoiceTurn.Proofs.Bus.History
import VoiceTurn.Proofs.Bus.Reception

/-!
# Trying again

A message is given to a bus again and again, until it is taken or refused for good, or the policy
allows no further attempt: the first attempt at which that is the case is the last one made
(`Retry.runFrom_spec`). Between two attempts there is one pause, as long as the policy says. On a
bus within the process at most the last attempt reaches anybody (`Room.publishRetrying_cases`).
-/

namespace VoiceTurn.Bus

open Topic (isMatch)

namespace Retry

section
variable {σ α : Type}

/-- A result that stands whatever the policy: `ok`, or a failure that is not `isPassing`. -/
def IsSettled : Except Failure α → Prop
  | .ok _ => True
  | .error f => f.isPassing = false

/-- The state after `k` attempts. -/
def stateAfter (operation : σ → Except Failure α × σ) (s : σ) : Nat → σ
  | 0 => s
  | k + 1 => (operation (stateAfter operation s k)).2

def resultOf (operation : σ → Except Failure α × σ) (s : σ) (k : Nat) : Except Failure α :=
  (operation (stateAfter operation s (k - 1))).1

inductive Step (α : Type) where
  | attempt (result : Except Failure α)
  | rest (pause : Nat)

/-- The steps of `runFrom`, when `made` attempts have been made and at most `left` more come after
the next one. -/
def stepsFrom (r : Retry) (operation : σ → Except Failure α × σ) (made : Nat) :
    (left : Nat) → σ → List (Step α)
  | 0, s => [.attempt (operation s).1]
  | left + 1, s =>
    .attempt (operation s).1 ::
      match (operation s).1 with
      | .ok _ => []
      | .error f =>
        match r.pauseAfter? (made + 1) f with
        | some pause => .rest pause :: stepsFrom r operation (made + 1) left (operation s).2
        | none => []

def steps (r : Retry) (operation : σ → Except Failure α × σ) (s : σ) : List (Step α) :=
  r.stepsFrom operation 0 (r.attempts - 1) s

variable {operation : σ → Except Failure α × σ} {s : σ}

lemma stateAfter_succ (k : Nat) :
    stateAfter operation s (k + 1) = stateAfter operation (operation s).2 k := by
  induction k with
  | zero => rfl
  | succ k ih => exact congrArg (fun s => (operation s).2) ih

lemma resultOf_succ {k : Nat} (hk : 1 ≤ k) :
    resultOf operation s (k + 1) = resultOf operation (operation s).2 k := by
  obtain ⟨k, rfl⟩ := Nat.exists_eq_add_of_le' hk
  exact congrArg (fun s => (operation s).1) (stateAfter_succ k)

/-- An attempt that `IsSettled` is the last one. -/
lemma runFrom_of_isSettled (r : Retry) (made left : Nat) (h : IsSettled (operation s).1) :
    r.runFrom operation made left s = ((operation s).1, 0, (operation s).2) ∧
      r.stepsFrom operation made left s = [.attempt (operation s).1] := by
  cases left with
  | zero => exact ⟨rfl, rfl⟩
  | succ left =>
    rcases hop : operation s with ⟨result, next⟩
    rw [hop] at h
    cases result with
    | ok a => simp [runFrom, stepsFrom, hop]
    | error f => simp [runFrom, stepsFrom, hop, pauseAfter?_eq_none h]

/-- After an attempt that is not settled comes a pause, and then the rest. -/
lemma runFrom_of_not_isSettled {r : Retry} {made : Nat} (left : Nat)
    (hmade : made + 1 < r.attempts) (h : ¬ IsSettled (operation s).1) :
    r.runFrom operation made (left + 1) s =
        ((r.runFrom operation (made + 1) left (operation s).2).1,
          r.pause (made + 1) + (r.runFrom operation (made + 1) left (operation s).2).2.1,
          (r.runFrom operation (made + 1) left (operation s).2).2.2) ∧
      r.stepsFrom operation made (left + 1) s =
        .attempt (operation s).1 :: .rest (r.pause (made + 1)) ::
          r.stepsFrom operation (made + 1) left (operation s).2 := by
  rcases hop : operation s with ⟨result, next⟩
  rw [hop] at h
  cases result with
  | ok a => exact absurd trivial h
  | error f =>
    have hf : f.isPassing = true := by simpa [IsSettled] using h
    have hpause : r.pauseAfter? (made + 1) f = some (r.pause (made + 1)) :=
      pauseAfter?_eq_some_iff.2 ⟨hf, hmade, rfl⟩
    simp [runFrom, stepsFrom, hop, hpause]

/-- The last attempt is the first one that `IsSettled`, or the last one that is allowed. -/
lemma runFrom_spec (r : Retry) {made left : Nat} (hattempts : made + left + 1 = max r.attempts 1)
    (s : σ) :
    ∃ k, 1 ≤ k ∧ k ≤ left + 1 ∧ (IsSettled (resultOf operation s k) ∨ k = left + 1) ∧
      (∀ j, 1 ≤ j → j < k → ¬ IsSettled (resultOf operation s j)) ∧
      r.runFrom operation made left s =
        (resultOf operation s k, ((List.range (k - 1)).map fun i => r.pause (made + i + 1)).sum,
          stateAfter operation s k) ∧
      r.stepsFrom operation made left s =
        ((List.range (k - 1)).flatMap fun i =>
          [.attempt (resultOf operation s (i + 1)), .rest (r.pause (made + i + 1))]) ++
            [.attempt (resultOf operation s k)] := by
  have hfirst (s : σ) : ∀ j, 1 ≤ j → j < 1 → ¬ IsSettled (resultOf operation s j) := by
    intro j hj hlt
    omega
  -- on the attempts that are left: the attempts after the first are those from the next state on
  induction left generalizing made s with
  | zero => exact ⟨1, Nat.le_refl 1, Nat.le_refl 1, .inr rfl, hfirst s, rfl, rfl⟩
  | succ left ih =>
    by_cases hsettled : IsSettled (operation s).1
    · obtain ⟨hrun, hsteps⟩ := runFrom_of_isSettled r made (left + 1) hsettled
      exact ⟨1, Nat.le_refl 1, by omega, .inl hsettled, hfirst s, hrun, hsteps⟩
    · have hmade : made + 1 < r.attempts := by omega
      obtain ⟨hrun, hsteps⟩ := runFrom_of_not_isSettled left hmade hsettled
      have hnext : made + 1 + left + 1 = max r.attempts 1 := by omega
      obtain ⟨k, hpos, hle, hlast, hbefore, hrun', hsteps'⟩ := ih hnext (operation s).2
      have hrange : List.range (k + 1 - 1) = 0 :: (List.range (k - 1)).map Nat.succ := by
        rw [← List.range_succ_eq_map]
        congr 1
        omega
      have hshift (i : Nat) : made + (i + 1) + 1 = made + 1 + i + 1 := by omega
      refine ⟨k + 1, by omega, by omega, ?_, ?_, ?_, ?_⟩
      · rw [resultOf_succ hpos]
        exact hlast.imp_right (congrArg (· + 1))
      · intro j hj hlt
        rcases Nat.eq_or_lt_of_le hj with rfl | hj
        · exact hsettled
        · obtain ⟨i, rfl⟩ : ∃ i, j = i + 1 := ⟨j - 1, by omega⟩
          rw [resultOf_succ (by omega)]
          exact hbefore i (by omega) (by omega)
      · rw [hrun, hrun', hrange, resultOf_succ hpos, stateAfter_succ]
        simp [List.map_map, Function.comp_def, hshift]
      · rw [hsteps, hsteps', hrange, resultOf_succ hpos]
        have hresult (i : Nat) :
            resultOf operation s (i + 1 + 1) = resultOf operation (operation s).2 (i + 1) :=
          resultOf_succ (Nat.succ_pos i)
        rw [List.flatMap_cons, List.flatMap_map]
        simp only [Nat.succ_eq_add_one, hresult, hshift]
        rfl

lemma pause_le (r : Retry) (retry : Nat) : r.pause retry ≤ r.cap :=
  Nat.min_le_right _ _

lemma sum_pause_le (r : Retry) (retries : List Nat) :
    (retries.map r.pause).sum ≤ retries.length * r.cap := by
  induction retries with
  | nil => simp
  | cons retry retries ih =>
    have hpause := r.pause_le retry
    rw [List.map_cons, List.sum_cons, List.length_cons, Nat.succ_mul]
    omega

/-- The spec of `run`, from the first attempt on. -/
lemma run_spec (r : Retry) (operation : σ → Except Failure α × σ) (s : σ) :
    ∃ k, IsLeast {k | 1 ≤ k ∧ (IsSettled (resultOf operation s k) ∨ k = max r.attempts 1)} k ∧
      r.run operation s =
        (resultOf operation s k, ((List.range (k - 1)).map fun i => r.pause (i + 1)).sum,
          stateAfter operation s k) ∧
      r.steps operation s =
        ((List.range (k - 1)).flatMap fun i =>
          [.attempt (resultOf operation s (i + 1)), .rest (r.pause (i + 1))]) ++
            [.attempt (resultOf operation s k)] := by
  have hattempts : 0 + (r.attempts - 1) + 1 = max r.attempts 1 := by omega
  obtain ⟨k, hpos, hle, hlast, hbefore, hrun, hsteps⟩ := r.runFrom_spec hattempts s
  have hmax : r.attempts - 1 + 1 = max r.attempts 1 := by omega
  rw [hmax] at hle hlast
  simp only [Nat.zero_add] at hrun hsteps
  refine ⟨k, ⟨⟨hpos, hlast⟩, ?_⟩, hrun, hsteps⟩
  rintro j ⟨hj, hsettled | rfl⟩
  · by_contra hlt
    exact hbefore j hj (Nat.lt_of_not_le hlt) hsettled
  · exact hle

end

end Retry

/-! ## On a bus within the process -/

namespace Room

variable {r : Room} {m : Message}

lemma attempt_of_takes (h : r.Takes m) :
    attempt m r =
      (.ok (), (r.bus.subscriptions.deliveries m).foldl hand { r with bus := r.bus.record m }) := by
  have hwork := work_handOver { r with bus := r.bus.record m } (r.bus.subscriptions.deliveries m) []
  rw [List.append_nil, work.eq_1] at hwork
  rw [← hwork]
  simp only [attempt, run, r.perform_publish_of_takes h]
  rfl

/-- An attempt that fails uses up a refusal at most. -/
lemma attempt_of_not_takes (h : ¬ r.Takes m) :
    ∃ f refusals, attempt m r = (.error f, { r with bus := { r.bus with refusals } }) := by
  obtain ⟨f, refusals, heq⟩ := r.perform_publish_of_not_takes h
  refine ⟨f, refusals, ?_⟩
  simp only [attempt, run, heq, List.map_nil]
  rw [work.eq_1]

/-- Attempts that fail use up `refusals`, and do nothing else. -/
lemma stateAfter_attempt {k : Nat}
    (h : ∀ j, 1 ≤ j → j ≤ k → ¬ Retry.IsSettled (Retry.resultOf (attempt m) r j)) :
    ∃ refusals, Retry.stateAfter (attempt m) r k = { r with bus := { r.bus with refusals } } := by
  induction k with
  | zero => exact ⟨r.bus.refusals, rfl⟩
  | succ k ih =>
    obtain ⟨refusals, hk⟩ := ih fun j hj hle => h j hj (by omega)
    have hfails := h (k + 1) (by omega) (Nat.le_refl _)
    rw [Retry.resultOf, Nat.add_sub_cancel, hk] at hfails
    rw [Retry.stateAfter, hk]
    by_cases htakes : Takes { r with bus := { r.bus with refusals } } m
    · rw [attempt_of_takes htakes] at hfails
      exact absurd trivial hfails
    · obtain ⟨f, refusals', heq⟩ := attempt_of_not_takes htakes
      exact ⟨refusals', by rw [heq]⟩

/-- Everything that `publishRetrying` can do: have the message taken once, by the last attempt, or
not at all. -/
lemma publishRetrying_cases (r : Room) (policy : Retry) (m : Message) :
    (∃ elapsed r₁, r₁ = { r with bus := { r.bus with refusals := 0 }.record m } ∧
      r.publishRetrying policy m =
        (.done, elapsed, (r.bus.subscriptions.deliveries m).foldl hand r₁)) ∨
    ∃ f elapsed refusals,
      r.publishRetrying policy m =
        (.failed f, elapsed, { r with bus := { r.bus with refusals } }) := by
  obtain ⟨k, ⟨⟨hpos, -⟩, hleast⟩, hrun, -⟩ := policy.run_spec (attempt m) r
  obtain ⟨k, rfl⟩ := Nat.exists_eq_add_of_le' hpos
  have hfails : ∀ j, 1 ≤ j → j ≤ k → ¬ Retry.IsSettled (Retry.resultOf (attempt m) r j) := by
    intro j hj hle hsettled
    have := hleast ⟨hj, .inl hsettled⟩
    omega
  obtain ⟨refusals, hstate⟩ := stateAfter_attempt hfails
  rw [Retry.resultOf, Nat.add_sub_cancel, Retry.stateAfter, hstate] at hrun
  by_cases htakes : Takes { r with bus := { r.bus with refusals } } m
  · obtain rfl : refusals = 0 := htakes.2.2
    rw [attempt_of_takes htakes] at hrun
    exact .inl ⟨_, _, rfl, by rw [publishRetrying, hrun]⟩
  · obtain ⟨f, refusals', heq⟩ := attempt_of_not_takes htakes
    rw [heq] at hrun
    exact .inr ⟨f, _, refusals', by rw [publishRetrying, hrun]⟩

end Room

namespace Retry

/-- A message is given to a bus until a result `IsSettled` or no further attempt is allowed, with
`pause` between the attempts. On a bus within the process a message reported as done is put into the
log once and handed once to each receiver that matches, and one reported as failed is neither. -/
theorem tries_until_settled (r : Retry) :
    -- on any bus, `k` attempts are made
    (∀ {σ α : Type} (publish : Message → σ → Except Failure α × σ) (m : Message) (s : σ), ∃ k,
      IsLeast {k | 1 ≤ k ∧ (IsSettled (resultOf (publish m) s k) ∨ k = max r.attempts 1)} k ∧
      r.run (publish m) s =
        (resultOf (publish m) s k, ((List.range (k - 1)).map fun i => r.pause (i + 1)).sum,
          stateAfter (publish m) s k) ∧
      r.steps (publish m) s =
        ((List.range (k - 1)).flatMap fun i =>
          [.attempt (resultOf (publish m) s (i + 1)), .rest (r.pause (i + 1))]) ++
            [.attempt (resultOf (publish m) s k)] ∧
      ((List.range (k - 1)).map fun i => r.pause (i + 1)).sum ≤ (k - 1) * r.cap ∧
      (r.attempts < UInt32.size → k < UInt32.size)) ∧
    -- on a bus within the process
    ∀ {capacity : Nat} {history : List (Act × Reply)} {room : Room},
      Room.Reaches { bus := { capacity } } history room [] → ∀ m : Message,
      (∃ elapsed ds room₁,
        room.publishRetrying r m = (.done, elapsed, ds.foldl Room.hand room₁) ∧
        room₁.bus.log = (room.bus.log ++ [m]).rtake capacity ∧
        room₁.bus.subscriptions = room.bus.subscriptions ∧ room₁.listeners = room.listeners ∧
        room₁.notes = room.notes ∧
        List.Forall₂ (fun e d => d.IsFor m e)
          (room.bus.subscriptions.entries.filter fun e => isMatch e.filter m.topic) ds ∧
        (room.IsQuiet → (ds.foldl Room.hand room₁).received =
          room.received ++ ds.map fun d => (room.labelOf d.receiver, d.message))) ∨
      ∃ f elapsed room',
        room.publishRetrying r m = (.failed f, elapsed, room') ∧ room'.bus.log = room.bus.log ∧
        room'.bus.subscriptions = room.bus.subscriptions ∧ room'.listeners = room.listeners ∧
        room'.notes = room.notes := by
  refine ⟨?_, ?_⟩
  · intro σ α publish m s
    obtain ⟨k, hleast, hrun, hsteps⟩ := r.run_spec (publish m) s
    refine ⟨k, hleast, hrun, hsteps, ?_, ?_⟩
    · have hsum := r.sum_pause_le ((List.range (k - 1)).map (· + 1))
      rwa [List.map_map, List.length_map, List.length_range] at hsum
    · intro hattempts
      have hle : k ≤ max r.attempts 1 := hleast.2 ⟨Nat.le_max_right _ _, .inr rfl⟩
      have hone : 1 < UInt32.size := by decide
      omega
  · intro capacity history room h m
    obtain ⟨hkeeps, -⟩ := h.keepsTo
    have hempty : Room.IsOrderly [] { bus := { capacity } } :=
      ⟨rfl, List.Sublist.refl [], List.Sublist.refl []⟩
    have horderly := h.isOrderly hempty
    rcases room.publishRetrying_cases r m with
      ⟨elapsed, room₁, rfl, heq⟩ | ⟨f, elapsed, refusals, heq⟩
    · refine .inl ⟨elapsed, _, _, heq, ?_, ?_, rfl, rfl, forall₂_deliveries _ _, ?_⟩
      · have hall : room.bus.log = room.bus.log.rtake room.bus.capacity := by
          rw [hkeeps.capacity_eq, List.rtake, Nat.sub_eq_zero_of_le hkeeps.length_log_le,
            List.drop_zero]
        rw [← hkeeps.capacity_eq]
        exact Local.log_record (b := { room.bus with refusals := 0 }) hall m
      · exact Room.subscriptions_record ..
      · intro hquiet
        exact Room.received_foldl_hand
          { room with bus := { room.bus with refusals := 0 }.record m } hquiet (horderly.isCalm m)
    · exact .inr ⟨f, elapsed, _, heq, rfl, rfl, rfl, rfl⟩

/-- Three attempts outlast two refusals, and the only receiver gets the message once. -/
theorem tries_until_settled_amid_refusals :
    ∃ history room, Room.Reaches { bus := { capacity := 4 } } history room [] ∧
      ∃ (ds : List (Delivery Nat)) (room₁ : Room),
      room.publishRetrying ⟨3, 50, 120⟩ (Room.call 1) = (.done, 150, ds.foldl Room.hand room₁) ∧
        ds.length = 1 ∧ room₁.bus.log = [Room.call 1] := by
  have h₀ : Room.Reaches { bus := { capacity := 4 } } [] { bus := { capacity := 4 } } [] := .start
  have hreach := (h₀.order (.subscribe "#" .atMostOnce "first" [] 0)).order (.refuseNext 2)
  refine ⟨_, _, hreach, ?_⟩
  obtain ⟨-, hroom⟩ := tries_until_settled ⟨3, 50, 120⟩
  rcases hroom hreach (Room.call 1) with
    ⟨elapsed, ds, room₁, heq, hlog, -, -, -, hds, -⟩ | ⟨f, elapsed, room', heq, -⟩
  · have helapsed : elapsed = 150 := by
      refine (congrArg (fun outcome => outcome.2.1) heq).symm.trans ?_
      cbv
    refine ⟨ds, room₁, ?_, ?_, hlog.trans (by decide +kernel)⟩
    · rw [← helapsed]
      exact heq
    · rw [← hds.length_eq]
      decide +kernel
  · have hreply : Reply.failed f = .done := by
      refine (congrArg Prod.fst heq).symm.trans ?_
      cbv
    cases hreply

end Retry

end VoiceTurn.Bus
