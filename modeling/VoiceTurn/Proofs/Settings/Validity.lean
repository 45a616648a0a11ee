import VoiceTurn.Proofs.Settings.Overrides
import VoiceTurn.Proofs.Topic.Routing

/-!
# Valid settings

What can be relied on once settings have passed their check (`Settings.validate_spec`), and what the
check of the topics has found when it fails (`Settings.checkTopics_eq_error`).
-/

namespace VoiceTurn

lemma exists_of_bind_eq_ok {ε α β : Type} {x : Except ε α} {f : α → Except ε β} {b : β}
    (h : (x >>= f) = .ok b) : ∃ a, x = .ok a ∧ f a = .ok b := by
  cases x with
  | error e => cases h
  | ok a => exact ⟨a, rfl, h⟩

lemma exists_of_bind_eq_error {ε α β : Type} {x : Except ε α} {f : α → Except ε β} {e : ε}
    (h : (x >>= f) = .error e) : x = .error e ∨ ∃ a, x = .ok a ∧ f a = .error e := by
  cases x with
  | error e' =>
    cases h
    exact .inl rfl
  | ok a => exact .inr ⟨a, rfl, h⟩

namespace Settings

lemma toNat_pos {value : UInt64} (h : value ≠ 0) : 0 < value.toNat := by
  rw [Nat.pos_iff_ne_zero]
  exact fun hzero => h (UInt64.toNat_inj.1 hzero)

lemma ne_zero_of_positive {path : String} {value : UInt64} (h : positive path value = .ok ()) :
    value ≠ 0 := by
  unfold positive at h
  split_ifs at h with hzero
  exact hzero

/-- When `checkTopics` passes: the root is not made of slashes alone, and the registry exists and
has no defect. -/
lemma checkTopics_eq_ok_iff {s : TopicSettings} :
    checkTopics s = .ok () ↔
      s.root.toList.all (· = '/') = false ∧ ∃ r, s.registry = .ok r ∧ r.defect? = none := by
  unfold checkTopics
  constructor
  · intro h
    split_ifs at h with hroot
    · cases h
    · obtain ⟨r, hr, hdefect⟩ := exists_of_bind_eq_ok h
      refine ⟨Bool.eq_false_iff.2 hroot, r, hr, ?_⟩
      cases hnone : r.defect? with
      | none => rfl
      | some d =>
        simp only [hnone] at hdefect
        cases hdefect
  · rintro ⟨hroot, r, hr, hdefect⟩
    rw [if_neg (Bool.eq_false_iff.1 hroot)]
    simp only [hr, bind, Except.bind, hdefect]
    rfl

lemma validate_eq_ok_iff {s : Settings} :
    s.validate = .ok () ↔ checkTurn s.turn = .ok () ∧ checkBus s.bus = .ok () ∧
      checkTopics s.topics = .ok () ∧ positive "tap.capacity" s.tap.capacity = .ok () := by
  constructor
  · intro h
    obtain ⟨_, hturn, h⟩ := exists_of_bind_eq_ok h
    obtain ⟨_, hbus, h⟩ := exists_of_bind_eq_ok h
    obtain ⟨_, htopics, htap⟩ := exists_of_bind_eq_ok h
    exact ⟨hturn, hbus, htopics, htap⟩
  · rintro ⟨hturn, hbus, htopics, htap⟩
    unfold validate
    rw [hturn, hbus, htopics]
    exact htap

/-- What a host relies on in settings that pass `validate`: a registry without defects, a deadline
that is not at hand from the start, room for a line, an attempt at least, and pauses that do not
begin beyond the longest one. -/
lemma validate_spec {settings : Settings} (h : settings.validate = .ok ()) :
    (∃ r, settings.topics.registry = .ok r ∧ r.defect? = none) ∧
      settings.turn.stallTimeout ≠ 0 ∧ settings.bus.maxLine ≠ 0 ∧
      settings.bus.retry.attempts ≠ 0 ∧
      settings.bus.retry.initialPause ≤ settings.bus.retry.longestPause := by
  obtain ⟨hturn, hbus, htopics, -⟩ := validate_eq_ok_iff.1 h
  obtain ⟨_, hstall, -⟩ := exists_of_bind_eq_ok hturn
  obtain ⟨_, hline, hretry⟩ := exists_of_bind_eq_ok hbus
  obtain ⟨-, hregistry⟩ := checkTopics_eq_ok_iff.1 htopics
  refine ⟨hregistry, ne_zero_of_positive hstall, ne_zero_of_positive hline, ?_⟩
  split_ifs at hretry with hpauses hattempts hattempts
  · cases hretry
  · cases hretry
  · exact ⟨hattempts, UInt64.not_lt.1 hpauses⟩

lemma validate_stock : Settings.stock.validate = .ok () :=
  validate_eq_ok_iff.2 ⟨by decide, by decide,
    checkTopics_eq_ok_iff.2 ⟨by decide +kernel, _, rfl, Topic.Registry.defect?_stock⟩, by decide⟩

/-- Of the limits on lines `validate` refuses zero only. -/
lemma validate_withMaxLine_iff {settings : Settings} (h : settings.validate = .ok ())
    {limit : UInt64} :
    { settings with bus := { settings.bus with maxLine := limit } }.validate = .ok () ↔
      limit ≠ 0 := by
  constructor
  · intro hvalid
    obtain ⟨-, -, hline, -⟩ := validate_spec hvalid
    exact hline
  · intro hlimit
    obtain ⟨hturn, hbus, htopics, htap⟩ := validate_eq_ok_iff.1 h
    obtain ⟨_, -, hretry⟩ := exists_of_bind_eq_ok hbus
    have hline : positive "bus.max_line_bytes" limit = .ok () := if_neg hlimit
    refine validate_eq_ok_iff.2 ⟨hturn, ?_, htopics, htap⟩
    unfold checkBus
    rw [hline]
    exact hretry

/-! ## Checks that fail -/

def fixedPaths : List String :=
  ["orchestrator.stall_timeout_ms", "orchestrator.event_queue_capacity",
    "orchestrator.event_channel_capacity", "bus.max_line_bytes", "bus.retry.max_attempts",
    "bus.retry.initial_backoff_ms", "tap.capacity"]

variable {path reason : String}

lemma path_of_positive {path' : String} {value : UInt64}
    (h : positive path value = .error (.invalidValue path' reason)) : path' = path := by
  unfold positive at h
  split_ifs at h
  cases h
  rfl

lemma mem_fixedPaths_of_checkTurn {s : TurnSettings}
    (h : checkTurn s = .error (.invalidValue path reason)) : path ∈ fixedPaths := by
  rcases exists_of_bind_eq_error h with h | ⟨_, -, h⟩
  · rw [path_of_positive h]
    decide
  · rcases exists_of_bind_eq_error h with h | ⟨_, -, h⟩
    · rw [path_of_positive h]
      decide
    · rw [path_of_positive h]
      decide

lemma mem_fixedPaths_of_checkBus {s : BusSettings}
    (h : checkBus s = .error (.invalidValue path reason)) : path ∈ fixedPaths := by
  rcases exists_of_bind_eq_error h with h | ⟨_, -, h⟩
  · rw [path_of_positive h]
    decide
  · split_ifs at h <;> cases h <;> decide

/-- Everything that `checkTopics` can blame: the root, or else a defect of the registry that the
topics make. -/
lemma checkTopics_eq_error {s : TopicSettings}
    (h : checkTopics s = .error (.invalidValue path reason)) :
    path = "topics.prefix" ∨ ∃ r name defect, s.registry = .ok r ∧
      r.defect? = some (name, defect) ∧ path = "topics." ++ name ∧ reason = defect.message := by
  unfold checkTopics at h
  split_ifs at h
  · cases h
    exact .inl rfl
  · rcases exists_of_bind_eq_error h with h | ⟨r, hr, h⟩
    · obtain ⟨name, hname⟩ := TopicSettings.exists_unknownTopic_of_registry h
      cases hname
    · refine .inr ⟨r, ?_⟩
      cases hdefect : r.defect? with
      | none =>
        simp only [hdefect] at h
        cases h
      | some d =>
        simp only [hdefect] at h
        cases h
        exact ⟨d.1, d.2, hr, rfl, rfl, rfl⟩

end Settings

end VoiceTurn
