import VoiceTurn.Proofs.Turn.Run

/-!
# The stall clock

The deadline of a session is not stored; it is found from the instant of the last progress. This
file reads it off the calls instead: by induction over them, the session under way has last
progressed when its last event was accepted (`Machine.Clocked`), at whatever instants the calls
come. The clock abandons a session from its deadline on, and what it has abandoned is gone until
another wake word is accepted.
-/

namespace VoiceTurn

/-- Whether the event was `advanced` or has `interrupted` a session. -/
def Outcome.isAccepted : Outcome → Bool
  | advanced .. | interrupted .. => true
  | discarded .. | stalled .. => false

namespace Machine

/-! ## Events and the patience -/

section
variable (m : Machine) (e : Event) (now : Nat)

lemma patience_handle : (m.handle e now).2.patience = m.patience := by
  rcases m.handle_cases e now with ⟨-, heq⟩ | ⟨s, -, heq⟩ | ⟨-, -, reason, heq⟩ <;> rw [heq] <;> rfl

/-- After an event that `isAccepted`, the session has last progressed at `now`. -/
lemma progress_handle (h : (m.handle e now).1.isAccepted = true) {s : Session}
    (hs : (m.handle e now).2.session = some s) : s.progress = now := by
  rcases m.handle_cases e now with ⟨-, heq⟩ | ⟨s, -, heq⟩ | ⟨-, -, reason, heq⟩
  · rw [heq, session_accept] at hs
    cases hs
    rfl
  · rw [heq, session_accept] at hs
    cases hs
    rfl
  · rw [heq] at h
    cases h

/-- An event that is not accepted leaves the machine as it is. -/
lemma handle_of_not_isAccepted (h : (m.handle e now).1.isAccepted = false) :
    (m.handle e now).2 = m := by
  rcases m.handle_cases e now with ⟨-, heq⟩ | ⟨s, -, heq⟩ | ⟨-, -, reason, heq⟩
  · rw [heq] at h
    cases h
  · rw [heq] at h
    cases h
  · rw [heq]

end

@[simp] lemma patience_call (m : Machine) (c : Call) : (m.call c).2.patience = m.patience := by
  cases c with
  | handle e now => exact m.patience_handle e now
  | expire now =>
    rcases m.expire_cases now with ⟨s, -, -, heq⟩ | ⟨-, heq⟩
    · rw [call_expire_some heq]
      rfl
    · rw [call_expire_none heq]
  | complete =>
    rw [call_complete_snd]
    rfl

@[simp] lemma patience_after (m : Machine) (cs : List Call) :
    (m.after cs).patience = m.patience := by
  induction cs generalizing m with
  | nil => rfl
  | cons c cs ih => rw [after_cons, ih, patience_call]

end Machine

/-! ## What has been accepted -/

/-- An event that was accepted, with the `turn` that it began or moved on and the instant at which
it was handled. -/
structure Accepted where
  turn : Nat
  event : Event
  instant : Nat
  deriving DecidableEq, Repr

def Call.accepted? : Call → Reply → Option Accepted
  | .handle e now, .outcome (.advanced turn ..) => some ⟨turn, e, now⟩
  | .handle e now, .outcome (.interrupted _ _ turn _) => some ⟨turn, e, now⟩
  | _, _ => none

/-- The events of a run for which `Call.accepted?` has something, in the order of the calls. -/
def Machine.accepted (m : Machine) : List Call → List Accepted
  | [] => []
  | c :: cs => (c.accepted? (m.call c).1).toList ++ (m.call c).2.accepted cs

/-- The instant of the last event of a turn. -/
def lastInstant? (history : List Accepted) (turn : Nat) : Option Nat :=
  ((history.filter fun a => a.turn = turn).map Accepted.instant).getLast?

lemma lastInstant?_concat (history : List Accepted) (a : Accepted) :
    lastInstant? (history ++ [a]) a.turn = some a.instant := by
  simp [lastInstant?]

namespace Machine

variable {m : Machine} {history : List Accepted}

/-- The session has last progressed at the instant that `lastInstant?` gives for its turn. -/
def Clocked (history : List Accepted) (m : Machine) : Prop :=
  ∀ s, m.session = some s → lastInstant? history s.turn = some s.progress

lemma clocked_of_no_session (h : m.session = none) : m.Clocked history := by
  intro s hs
  rw [h] at hs
  cases hs

/-- After `Machine.accept` the session has last progressed with that event. -/
lemma clocked_accept (e : Event) (now : Nat) :
    (m.accept now).Clocked (history ++ [⟨m.turnForRule.1, e, now⟩]) := by
  intro s hs
  rw [session_accept] at hs
  obtain rfl := Option.some.inj hs
  exact lastInstant?_concat history ⟨m.turnForRule.1, e, now⟩

/-- The step lemma for `Clocked`: a call accepts an event, takes the session away, or leaves it as
it is. -/
lemma Clocked.call (h : m.Clocked history) (c : Call) :
    (m.call c).2.Clocked (history ++ (c.accepted? (m.call c).1).toList) := by
  cases c with
  | handle e now =>
    rw [call_handle]
    rcases m.handle_cases e now with ⟨-, heq⟩ | ⟨s, -, heq⟩ | ⟨-, -, reason, heq⟩ <;> rw [heq]
    · exact clocked_accept e now
    · exact clocked_accept e now
    · simpa [Call.accepted?] using h
  | expire now =>
    rcases m.expire_cases now with ⟨s, -, -, heq⟩ | ⟨-, heq⟩
    · rw [call_expire_some heq]
      exact clocked_of_no_session rfl
    · rw [call_expire_none heq]
      simpa [Call.accepted?] using h
  | complete =>
    rw [call_complete_snd]
    exact clocked_of_no_session rfl

lemma Clocked.after (h : m.Clocked history) (cs : List Call) :
    (m.after cs).Clocked (history ++ m.accepted cs) := by
  induction cs generalizing m history with
  | nil => simpa [Machine.accepted] using h
  | cons c cs ih =>
    rw [Machine.accepted, ← List.append_assoc]
    exact ih (h.call c)

/-! ## Without a session -/

/-- Only `wakeDetected` begins a session. -/
lemma session_call_of_no_wake {c : Call} (h : m.session = none)
    (hwake : ∀ a ∈ c.accepted? (m.call c).1, a.event.cue ≠ .wakeDetected) :
    (m.call c).2.session = none := by
  cases c with
  | handle e now =>
    rw [call_handle] at hwake ⊢
    rcases m.handle_cases e now with ⟨he, heq⟩ | ⟨s, hi, -⟩ | ⟨-, -, reason, heq⟩
    · -- without a session only a wake word is awaited
      rw [phase_of_no_session h, Phase.awaited, List.mem_singleton] at he
      rw [heq] at hwake
      exact absurd he (hwake _ rfl)
    · obtain ⟨hs, -⟩ := hi
      rw [h] at hs
      cases hs
    · rw [heq]
      exact h
  | expire now =>
    rcases m.expire_cases now with ⟨s, -, -, heq⟩ | ⟨-, heq⟩
    · rw [call_expire_some heq]
      rfl
    · rw [call_expire_none heq]
      exact h
  | complete =>
    rw [call_complete_snd]
    rfl

lemma session_after_of_no_wake {cs : List Call} (h : m.session = none)
    (hwake : ∀ a ∈ m.accepted cs, a.event.cue ≠ .wakeDetected) :
    (m.after cs).session = none := by
  induction cs generalizing m with
  | nil => exact h
  | cons c cs ih =>
    rw [Machine.accepted] at hwake
    have hfirst : (m.call c).2.session = none := session_call_of_no_wake h fun a ha =>
      hwake a (List.mem_append_left _ (Option.mem_toList.2 ha))
    exact ih hfirst fun a ha => hwake a (List.mem_append_right _ ha)

/-! ## The deadline -/

lemma deadline?_of_session {s : Session} (h : m.session = some s) :
    m.deadline? = some (s.progress + m.patience) := by
  rw [deadline?, h, Option.map_some]

lemma expire_of_no_session (h : m.session = none) (now : Nat) : m.expire now = none := by
  simp [expire, h]

/-- A session is abandoned by `Machine.expire` just from `deadline?` on. -/
lemma expire_isSome_iff (m : Machine) (now : Nat) :
    (m.expire now).isSome ↔ m.session.isSome ∧ ∃ d, m.deadline? = some d ∧ d ≤ now := by
  rcases m.expire_cases now with ⟨s, hs, hnow, heq⟩ | ⟨hnow, heq⟩
  · rw [heq, hs]
    exact iff_of_true rfl ⟨rfl, _, deadline?_of_session hs, hnow⟩
  · rw [heq]
    refine iff_of_false Bool.false_ne_true ?_
    rintro ⟨hsome, d, hd, hle⟩
    obtain ⟨s, hs⟩ := Option.isSome_iff_exists.1 hsome
    rw [deadline?_of_session hs] at hd
    have hd' := Option.some.inj hd
    have hlt := hnow s hs
    omega

/-- After any calls the deadline is `patience` after the last accepted event of the session,
whichever way the instants go, and `Machine.expire` abandons the session just from then on. Instants
are unbounded natural numbers here; where they are bounded, computing a deadline that cannot be
represented is a fault. -/
theorem stall_clock_follows_accepted (policy : SecondWake) (patience : Nat)
    (composer : Response.Composer) (cs : List Call) :
    let start := fresh policy patience composer
    let m := start.after cs
    (m.session = none → m.deadline? = none) ∧
      (∀ s, m.session = some s → ∃ t, lastInstant? (start.accepted cs) s.turn = some t ∧
        m.deadline? = some (t + patience)) ∧
      -- what changes nothing
      (∀ e now phase cue reason, (m.handle e now).1 = .discarded phase cue reason →
        (m.handle e now).2 = m) ∧
      (∀ now, m.expire now = none → (m.call (.expire now)).2 = m) ∧
      (∀ now, (m.expire now).isSome ↔
        m.session.isSome ∧ ∃ d, m.deadline? = some d ∧ d ≤ now) ∧
      -- what is reported of an abandoned session, and what it leaves
      ∀ now o next, m.expire now = some (o, next) →
        ∃ s t, m.session = some s ∧ lastInstant? (start.accepted cs) s.turn = some t ∧
          o = .stalled s.turn s.phase (now - t) s.phase.compensation ∧
          t ≤ now ∧ patience ≤ now - t ∧
          next.phase = .idle ∧ next.deadline? = none ∧ next.turns = m.turns ∧
          ∀ ds, (∀ a ∈ next.accepted ds, a.event.cue ≠ .wakeDetected) →
            ∀ later, (next.after ds).expire later = none := by
  intro start m
  have hfresh : start.Clocked [] := clocked_of_no_session rfl
  have hclocked : m.Clocked (start.accepted cs) := hfresh.after cs
  have hpatience : m.patience = patience := patience_after start cs
  refine ⟨fun hnone => ?_, fun s hs => ⟨s.progress, hclocked s hs, ?_⟩,
    fun e now phase cue reason ho => ?_, fun now hnone => ?_, m.expire_isSome_iff,
    fun now o next hsome => ?_⟩
  · rw [deadline?, hnone, Option.map_none]
  · rw [deadline?_of_session hs, hpatience]
  · refine m.handle_of_not_isAccepted e now ?_
    rw [ho]
    rfl
  · rw [call_expire_none hnone]
  · rcases m.expire_cases now with ⟨s, hs, hnow, heq⟩ | ⟨-, heq⟩
    · rw [heq] at hsome
      obtain ⟨rfl, rfl⟩ := Prod.mk.inj (Option.some.inj hsome)
      rw [hpatience] at hnow
      refine ⟨s, s.progress, hs, hclocked s hs, rfl, ?_, ?_, rfl, rfl, rfl, fun ds hds later => ?_⟩
      · omega
      · omega
      · exact expire_of_no_session (session_after_of_no_wake rfl hds) later
    · rw [heq] at hsome
      cases hsome

end Machine

end VoiceTurn
