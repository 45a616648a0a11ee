import VoiceTurn.Proofs.Settings.Validity
import VoiceTurn.Proofs.Topic.Routing

/-!
# What a defect is blamed on

A registry that is refused has a defect, and the topic of some slot really has it
(`Registry.exists_hasDefect`). The defect of a topic by itself is blamed on its slot. A topic that
two cues share is blamed on the later cue, by the name of the cue; four cues have the names of their
slots, but a command that timed out has not, and its name cannot be given in an override.
-/

namespace VoiceTurn

namespace Topic

/-- The name of a cue is the name of its slot, unless it is `commandTimedOut`. -/
lemma Slot.name_ofCue {c : Cue} (h : c ≠ .commandTimedOut) : (ofCue c).name = c.name := by
  cases c with
  | commandTimedOut => exact absurd rfl h
  | _ => rfl

lemma Slot.name_commandTimedOut_not_mem : Cue.commandTimedOut.name ∉ all.map name := by decide

namespace Registry

/-- The topic of `slot` has the defect. -/
inductive HasDefect (r : Registry) (slot : Slot) : Defect → Prop where
  | empty (h : r.topic slot = "") : HasDefect r slot .empty
  | wildcard {c : Char} (hc : c ∈ (r.topic slot).toList) (h : c = '+' ∨ c = '#') :
      HasDefect r slot (.wildcard (r.topic slot))
  | blank {c : Char} (hc : c ∈ (r.topic slot).toList) (h : isBlank c = true) :
      HasDefect r slot (.blank (r.topic slot))
  | shared {before after : List Cue} {c d : Cue} (hall : Cue.all = before ++ c :: after)
      (hd : d ∈ before) (hc : slot = Slot.ofCue c) (h : r.ofCue d = r.topic slot) :
      HasDefect r slot (.shared (r.topic slot))

variable {r : Registry} {name : String} {defect : Defect}

lemma hasDefect_of_topicDefect? {slot : Slot} (h : topicDefect? (r.topic slot) = some defect) :
    r.HasDefect slot defect := by
  unfold topicDefect? at h
  split_ifs at h with hempty hwildcard hblank
  · cases h
    exact .empty (String.toList_eq_nil_iff.1 (List.isEmpty_iff.1 hempty))
  · cases h
    obtain ⟨c, hc, hw⟩ := List.any_eq_true.1 hwildcard
    exact .wildcard hc (by simpa [isWildcard] using hw)
  · cases h
    obtain ⟨c, hc, hb⟩ := List.any_eq_true.1 hblank
    exact .blank hc hb

lemma firstUnusable?_eq_some (h : r.firstUnusable? = some (name, defect)) :
    ∃ slot : Slot, name = slot.name ∧ topicDefect? (r.topic slot) = some defect := by
  obtain ⟨slot, -, hslot⟩ := List.exists_of_findSome?_eq_some h
  obtain ⟨_, hdefect, heq⟩ := Option.map_eq_some_iff.1 hslot
  cases heq
  exact ⟨slot, rfl, hdefect⟩

/-- The cue that `firstShared?` blames is the first one that shares its topic with an earlier
one. -/
lemma firstShared?_eq_some {earlier cues : List Cue}
    (h : r.firstShared? earlier cues = some (name, defect)) :
    ∃ before c after, cues = before ++ c :: after ∧ name = c.name ∧
      defect = .shared (r.ofCue c) ∧ ∃ d ∈ earlier ++ before, r.ofCue d = r.ofCue c := by
  induction cues generalizing earlier with
  | nil => cases h
  | cons c cues ih =>
    unfold firstShared? at h
    split_ifs at h with hshared
    · cases h
      obtain ⟨d, hd, hdc⟩ := List.any_eq_true.1 hshared
      exact ⟨[], c, cues, rfl, rfl, rfl, d, by simpa using hd, of_decide_eq_true hdc⟩
    · obtain ⟨before, c', after, rfl, hname, hdefect, d, hd, hsame⟩ := ih h
      exact ⟨c :: before, c', after, rfl, hname, hdefect, d, by simpa using hd, hsame⟩

/-- The defect that `defect?` finds is real, and it is blamed on the slot that has it, or else on
`commandTimedOut`. -/
lemma exists_hasDefect (h : r.defect? = some (name, defect)) :
    ∃ slot, r.HasDefect slot defect ∧
      (name = slot.name ∨ slot = .commandTimeout ∧ name = Cue.commandTimedOut.name) := by
  unfold defect? at h
  cases hunusable : r.firstUnusable? with
  | some d =>
    rw [hunusable] at h
    cases h
    obtain ⟨slot, rfl, hdefect⟩ := firstUnusable?_eq_some hunusable
    exact ⟨slot, hasDefect_of_topicDefect? hdefect, .inl rfl⟩
  | none =>
    rw [hunusable] at h
    obtain ⟨before, c, after, hall, rfl, rfl, d, hd, hsame⟩ := firstShared?_eq_some h
    refine ⟨Slot.ofCue c, .shared hall hd rfl hsame, ?_⟩
    by_cases hc : c = .commandTimedOut
    · subst hc
      exact .inr ⟨rfl, rfl⟩
    · exact .inl (Slot.name_ofCue hc).symm

/-- The cue `commandTimedOut` comes on the topic of an earlier cue, and nothing else is wrong up to
there, so that its name is blamed, which no slot has. -/
def BlamesNoSlot (r : Registry) : Prop :=
  (∀ slot, isPublishable (r.topic slot) = true) ∧
    r.ofCue .wakeDetected ≠ r.ofCue .commandStopped ∧
    (r.ofCue .wakeDetected = r.ofCue .commandTimedOut ∨
      r.ofCue .commandStopped = r.ofCue .commandTimedOut)

/-- The cue `commandTimedOut` is blamed when it shares the topic of the first or the second cue,
which have different ones. -/
lemma firstShared?_commandTimedOut_iff :
    (∃ defect, r.firstShared? [] Cue.all = some (Cue.commandTimedOut.name, defect)) ↔
      r.ofCue .wakeDetected ≠ r.ofCue .commandStopped ∧
        (r.ofCue .wakeDetected = r.ofCue .commandTimedOut ∨
          r.ofCue .commandStopped = r.ofCue .commandTimedOut) := by
  have hnames : ∀ c : Cue, c.name = Cue.commandTimedOut.name ↔ c = .commandTimedOut := by
    intro c
    cases c <;> decide
  -- the search is opened for the five cues, and only the third one has the name
  simp only [Cue.all, firstShared?, List.any_nil, List.nil_append, List.any_cons, List.cons_append,
    Bool.or_false, decide_eq_true_eq, Bool.or_eq_true]
  by_cases hstopped : r.ofCue .wakeDetected = r.ofCue .commandStopped
  · simp [hstopped, hnames]
  · by_cases htimedOut : r.ofCue .wakeDetected = r.ofCue .commandTimedOut ∨
        r.ofCue .commandStopped = r.ofCue .commandTimedOut
    · simp [hstopped, htimedOut]
    · simp only [hstopped, htimedOut, if_false]
      split_ifs <;> simp [hnames]

lemma blamesNoSlot_iff :
    (∃ name defect, r.defect? = some (name, defect) ∧ name ∉ Slot.all.map Slot.name) ↔
      r.BlamesNoSlot := by
  unfold BlamesNoSlot
  rw [← firstUnusable?_eq_none_iff, ← firstShared?_commandTimedOut_iff]
  constructor
  · rintro ⟨name, defect, h, hname⟩
    obtain ⟨slot, -, rfl | ⟨-, rfl⟩⟩ := exists_hasDefect h
    · exact absurd (List.mem_map_of_mem slot.mem_all) hname
    · unfold defect? at h
      cases hunusable : r.firstUnusable? with
      | some d =>
        -- a topic that is unusable by itself is blamed on a slot
        rw [hunusable] at h
        cases h
        obtain ⟨slot, hslot, -⟩ := firstUnusable?_eq_some hunusable
        exact absurd (hslot ▸ List.mem_map_of_mem slot.mem_all) hname
      | none =>
        rw [hunusable] at h
        exact ⟨rfl, defect, h⟩
  · rintro ⟨hunusable, defect, hshared⟩
    refine ⟨_, defect, ?_, Slot.name_commandTimedOut_not_mem⟩
    rw [defect?, hunusable]
    exact hshared

end Registry

end Topic

namespace Settings

open Topic (Registry Slot)

lemma ne_of_mem_fixedPaths {path : String} (h : path ∈ fixedPaths) (name : String) :
    path ≠ "topics." ++ name := by
  have hstart : ∀ path ∈ fixedPaths, ¬ "topics.".toList <+: path.toList := by decide +kernel
  rintro rfl
  refine hstart _ h ?_
  rw [String.toList_append]
  exact List.prefix_append _ _

/-- Whatever is blamed on a topic has been found by `checkTopics`. -/
lemma checkTopics_of_validate {s : Settings} {name reason : String}
    (h : s.validate = .error (.invalidValue ("topics." ++ name) reason)) :
    checkTopics s.topics = .error (.invalidValue ("topics." ++ name) reason) := by
  rcases exists_of_bind_eq_error h with h | ⟨_, -, h⟩
  · exact absurd rfl (ne_of_mem_fixedPaths (mem_fixedPaths_of_checkTurn h) name)
  · rcases exists_of_bind_eq_error h with h | ⟨_, -, h⟩
    · exact absurd rfl (ne_of_mem_fixedPaths (mem_fixedPaths_of_checkBus h) name)
    · rcases exists_of_bind_eq_error h with h | ⟨_, -, h⟩
      · exact h
      · have hpath : "topics." ++ name = "tap.capacity" := path_of_positive h
        exact absurd hpath.symm (ne_of_mem_fixedPaths (by decide) name)

end Settings

namespace Topic.Registry

/-- The topic of some slot really has the defect that `defect?` reports, and the name it blames is
that slot's or, exactly when `BlamesNoSlot`, the name of no slot. When `validate` refuses settings
because of a topic other than the root, an override by the name blamed is accepted and replaces the
topic, or, when `BlamesNoSlot`, is refused. -/
theorem defects_are_blamed_on_slots (r : Registry) (s : Settings) :
    (∀ name defect, r.defect? = some (name, defect) → ∃ slot, r.HasDefect slot defect ∧
      (name ∈ Slot.all.map Slot.name → name = slot.name)) ∧
    ((∀ name defect, r.defect? = some (name, defect) → name ∈ Slot.all.map Slot.name) ↔
      ¬ r.BlamesNoSlot) ∧
    -- what the blame is good for: an override by that name
    ∀ name reason : String,
      s.validate = .error (.invalidValue ("topics." ++ name) reason) → name ≠ "prefix" →
      ∃ r slot defect, s.topics.registry = .ok r ∧ r.HasDefect slot defect ∧
        reason = defect.message ∧
        (¬ r.BlamesNoSlot → name = slot.name ∧ ∀ topic, ∃ r',
          (s.topics.withOverride name topic).registry = .ok r' ∧ r'.topic slot = topic) ∧
        (r.BlamesNoSlot → ∀ topic,
          (s.topics.withOverride name topic).registry = .error (.unknownTopic name)) := by
  have hblames (r : Registry) :
      (∀ name defect, r.defect? = some (name, defect) → name ∈ Slot.all.map Slot.name) ↔
        ¬ r.BlamesNoSlot := by
    rw [← blamesNoSlot_iff]
    push Not
    rfl
  refine ⟨fun name defect h => ?_, hblames r, fun name reason h hprefix => ?_⟩
  · obtain ⟨slot, hdefect, rfl | ⟨-, rfl⟩⟩ := exists_hasDefect h
    · exact ⟨slot, hdefect, fun _ => rfl⟩
    · exact ⟨slot, hdefect, fun hname => absurd hname Slot.name_commandTimedOut_not_mem⟩
  · rcases Settings.checkTopics_eq_error (Settings.checkTopics_of_validate h) with
      hpath | ⟨r, name', defect, hr, hdefect, hpath, rfl⟩
    · exact absurd ((String.append_right_inj _).1 hpath) hprefix
    · obtain rfl := (String.append_right_inj _).1 hpath
      obtain ⟨slot, hreal, hname⟩ := exists_hasDefect hdefect
      refine ⟨r, slot, defect, hr, hreal, rfl, fun hblame => ?_, fun hblame topic => ?_⟩
      · rcases hname with rfl | ⟨-, rfl⟩
        · exact ⟨rfl, fun topic =>
            ⟨_, TopicSettings.registry_withOverride_slot hr slot topic, if_pos rfl⟩⟩
        · exact absurd ((hblames r).2 hblame _ _ hdefect) Slot.name_commandTimedOut_not_mem
      · obtain ⟨_, _, hother, hno⟩ := blamesNoSlot_iff.2 hblame
        -- there is one defect that is reported
        rw [hdefect] at hother
        cases hother
        exact TopicSettings.registry_withOverride_unknown hr hno topic

/-- A command that timed out comes on the topic of the wake word: the topic of the slot
`commandTimeout` is shared, but the name that is blamed cannot be given in an override. -/
theorem time_out_is_blamed_on_no_slot :
    let shared := stock.replace .commandTimeout (stock.topic .wakeDetected)
    let s : Settings :=
      { topics := { overrides := .ofList [("command_timeout", "rhasspy/wake-word/detected")] } }
    shared.defect? = some ("command_timed_out", .shared "rhasspy/wake-word/detected") ∧
      "command_timed_out" ∉ Slot.all.map Slot.name ∧
      s.validate = .error (.invalidValue "topics.command_timed_out"
        "'rhasspy/wake-word/detected' is used by more than one inbound event") ∧
      ∀ topic, (s.topics.withOverride "command_timed_out" topic).registry =
        .error (.unknownTopic "command_timed_out") := by
  intro shared s
  have hknown : ∀ e ∈ s.topics.overrides.entries, TopicSettings.isUnknown e = false := by decide
  exact ⟨by decide +kernel, by decide, by decide +kernel, fun topic =>
    TopicSettings.registry_withOverride_unknown (s.topics.registry_of_known hknown) (by decide)
      topic⟩

end Topic.Registry

end VoiceTurn
