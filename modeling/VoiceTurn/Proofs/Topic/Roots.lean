import Mathlib.Data.List.TakeWhile
import VoiceTurn.Proofs.Topic.Routing

/-!
# Topics below a root

The stock topics can be put below any root. A path below the root has two levels and the root is all
that comes before them, so a topic tells its root, but for slashes at the end of that, and its slot
(`Registry.topic_below_eq_iff`). Whether such a registry can be used is decided by the characters of
the root alone (`Registry.defect?_below_eq_none_iff`).
-/

namespace VoiceTurn.Topic

/-! ## Levels of joined texts -/

lemma levelsFrom_append_slash (read xs ys : List Char) :
    levelsFrom read (xs ++ '/' :: ys) = levelsFrom read xs ++ levelsFrom [] ys := by
  induction xs generalizing read with
  | nil => rfl
  | cons c xs ih =>
    rw [List.cons_append, levelsFrom, levelsFrom, ih, ih]
    split_ifs <;> rfl

lemma levelsFrom_nil_injective {xs ys : List Char} (h : levelsFrom [] xs = levelsFrom [] ys) :
    xs = ys := by
  have hjoin := congrArg joinLevels h
  rwa [joinLevels_levelsFrom, joinLevels_levelsFrom] at hjoin

namespace Slot

lemma length_levels_path (s : Slot) : (levelsFrom [] s.path.toList).length = 2 := by
  cases s <;> decide +kernel

lemma path_injective {s s' : Slot} (h : s.path.toList = s'.path.toList) : s = s' := by
  have hdistinct : (all.map fun s => s.path.toList).Nodup := by decide +kernel
  exact List.inj_on_of_nodup_map hdistinct s.mem_all s'.mem_all h

lemma isPublishable_path (s : Slot) : isPublishable s.path = true := by
  cases s <;> decide +kernel

end Slot

namespace Registry

/-! ## Roots -/

/-- What `trimRoot` takes off the end of a root are slashes only. -/
lemma exists_toList_eq_trimRoot_append (root : String) :
    ∃ n, root.toList = trimRoot root ++ List.replicate n '/' := by
  have hsplit :=
    List.takeWhile_append_dropWhile (p := fun c => decide (c = '/')) (l := root.toList.reverse)
  have hslashes : ∀ c ∈ root.toList.reverse.takeWhile (fun c => decide (c = '/')), c = '/' := by
    intro c hc
    exact of_decide_eq_true (List.mem_takeWhile_imp (p := fun c => decide (c = '/')) hc)
  refine ⟨(root.toList.reverse.takeWhile (· = '/')).length, ?_⟩
  rw [trimRoot, ← List.reverse_replicate, ← List.eq_replicate_of_mem hslashes,
    ← List.reverse_append, hsplit, List.reverse_reverse]

lemma trimRoot_append_slashes (root : String) (n : Nat) :
    trimRoot (String.ofList (root.toList ++ List.replicate n '/')) = trimRoot root := by
  have hslashes : ∀ c ∈ List.replicate n '/', decide (c = '/') = true :=
    fun c hc => decide_eq_true (List.eq_of_mem_replicate hc)
  rw [trimRoot, trimRoot, String.toList_ofList, List.reverse_append, List.reverse_replicate,
    List.dropWhile_append_of_pos hslashes]

lemma toList_topic_below (root : String) (slot : Slot) :
    ((below root).topic slot).toList = trimRoot root ++ '/' :: slot.path.toList :=
  String.toList_ofList

/-- A topic below a root tells the `trimRoot` of the root, and the slot. -/
lemma topic_below_eq_iff {root root' : String} {slot slot' : Slot} :
    (below root).topic slot = (below root').topic slot' ↔
      trimRoot root = trimRoot root' ∧ slot = slot' := by
  constructor
  · intro h
    have hchars := congrArg String.toList h
    rw [toList_topic_below, toList_topic_below] at hchars
    have hlevels := congrArg (levelsFrom []) hchars
    rw [levelsFrom_append_slash, levelsFrom_append_slash] at hlevels
    -- the last two levels are the path
    obtain ⟨hroot, hpath⟩ := List.append_inj' hlevels
      (slot.length_levels_path.trans slot'.length_levels_path.symm)
    exact ⟨levelsFrom_nil_injective hroot, Slot.path_injective (levelsFrom_nil_injective hpath)⟩
  · rintro ⟨hroot, rfl⟩
    rw [below, below, hroot]

lemma below_eq_iff {root root' : String} :
    below root = below root' ↔ trimRoot root = trimRoot root' := by
  constructor
  · intro h
    exact (topic_below_eq_iff.1 (congrArg (fun r => r.topic .wakeDetected) h)).1
  · intro h
    rw [below, below, h]

/-- Below a root without wildcards and blanks every topic `isPublishable`, and below any other root
none is. -/
lemma isPublishable_topic_below_iff (root : String) (slot : Slot) :
    isPublishable ((below root).topic slot) = true ↔
      ∀ c ∈ root.toList, isWildcard c = false ∧ isBlank c = false := by
  obtain ⟨n, hroot⟩ := exists_toList_eq_trimRoot_append root
  have hslash : isWildcard '/' = false ∧ isBlank '/' = false := by decide
  rw [isPublishable_iff, toList_topic_below]
  constructor
  · rintro ⟨-, hall⟩ c hc
    rw [hroot] at hc
    rcases List.mem_append.1 hc with hc | hc
    · exact hall c (List.mem_append_left _ hc)
    · rw [List.eq_of_mem_replicate hc]
      exact hslash
  · intro hall
    refine ⟨List.append_ne_nil_of_right_ne_nil _ (List.cons_ne_nil _ _), fun c hc => ?_⟩
    rcases List.mem_append.1 hc with hc | hc
    · refine hall c ?_
      rw [hroot]
      exact List.mem_append_left _ hc
    · rcases List.mem_cons.1 hc with rfl | hc
      · exact hslash
      · exact (isPublishable_iff.1 slot.isPublishable_path).2 c hc

/-- A root without wildcards and blanks makes a registry without `defect?`, and no other root
does. -/
lemma defect?_below_eq_none_iff {root : String} :
    (below root).defect? = none ↔ ∀ c ∈ root.toList, isWildcard c = false ∧ isBlank c = false := by
  rw [defect?_eq_none_iff]
  constructor
  · rintro ⟨hslots, -⟩
    exact (isPublishable_topic_below_iff root .wakeDetected).1 (hslots _)
  · intro hall
    refine ⟨fun slot => (isPublishable_topic_below_iff root slot).2 hall, ?_⟩
    have hslots : ∀ c ∈ Cue.all, ∀ c' ∈ Cue.all, Slot.ofCue c = Slot.ofCue c' → c = c' := by decide
    exact List.Nodup.map_on (fun c hc c' hc' heq => hslots c hc c' hc' (topic_below_eq_iff.1 heq).2)
      (by decide)

end Registry

end VoiceTurn.Topic
