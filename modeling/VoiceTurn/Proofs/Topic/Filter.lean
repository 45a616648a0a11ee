import Mathlib.Tactic.Lemma
import Mathlib.Tactic.SplitIfs
import VoiceTurn.Topic.Filter

/-!
# Publishable topics as filters

A text is determined by its levels (`levels_injective`). A publishable topic has no wildcards in
them, so as a filter it can be subscribed to and matches itself only.
-/

namespace VoiceTurn.Topic

/-! ## Levels -/

lemma levelsFrom_ne_nil (read cs : List Char) : levelsFrom read cs ≠ [] := by
  induction cs generalizing read with
  | nil => exact List.cons_ne_nil _ _
  | cons c cs ih =>
    unfold levelsFrom
    split_ifs
    · exact List.cons_ne_nil _ _
    · exact ih _

def joinLevels : List (List Char) → List Char
  | [] => []
  | [level] => level
  | level :: rest => level ++ '/' :: joinLevels rest

lemma joinLevels_cons (level : List Char) {rest : List (List Char)} (h : rest ≠ []) :
    joinLevels (level :: rest) = level ++ '/' :: joinLevels rest := by
  cases rest with
  | nil => exact absurd rfl h
  | cons next rest => rfl

lemma joinLevels_levelsFrom (read cs : List Char) :
    joinLevels (levelsFrom read cs) = read.reverse ++ cs := by
  induction cs generalizing read with
  | nil => simp [levelsFrom, joinLevels]
  | cons c cs ih =>
    unfold levelsFrom
    split_ifs with hc
    · rw [joinLevels_cons _ (levelsFrom_ne_nil [] cs), ih, hc]
      rfl
    · rw [ih, List.reverse_cons, List.append_assoc]
      rfl

lemma levels_injective {s t : String} (h : levels s = levels t) : s = t := by
  have hjoin := congrArg joinLevels h
  rw [levels, levels, joinLevels_levelsFrom, joinLevels_levelsFrom] at hjoin
  exact String.toList_inj.1 hjoin

lemma mem_of_mem_levelsFrom {read cs level : List Char} {c : Char}
    (hlevel : level ∈ levelsFrom read cs) (hc : c ∈ level) : c ∈ read ∨ c ∈ cs := by
  induction cs generalizing read with
  | nil =>
    rw [levelsFrom, List.mem_singleton] at hlevel
    rw [hlevel, List.mem_reverse] at hc
    exact .inl hc
  | cons d cs ih =>
    unfold levelsFrom at hlevel
    split_ifs at hlevel with hd
    · rcases List.mem_cons.1 hlevel with rfl | hlevel
      · exact .inl (List.mem_reverse.1 hc)
      · rcases ih hlevel with h | h
        · exact absurd h List.not_mem_nil
        · exact .inr (List.mem_cons_of_mem _ h)
    · rcases ih hlevel with h | h
      · rcases List.mem_cons.1 h with rfl | h
        · exact .inr List.mem_cons_self
        · exact .inl h
      · exact .inr (List.mem_cons_of_mem _ h)

/-! ## Publishable topics -/

section
variable {f t : String}

lemma isPublishable_iff : isPublishable t = true ↔
    t.toList ≠ [] ∧ ∀ c ∈ t.toList, isWildcard c = false ∧ isBlank c = false := by
  simp [isPublishable]

lemma any_isWildcard_of_mem_levels (h : isPublishable f = true) {level : List Char}
    (hlevel : level ∈ levels f) : level.any isWildcard = false := by
  rw [List.any_eq_false]
  intro c hc
  rcases mem_of_mem_levelsFrom hlevel hc with hread | hf
  · exact absurd hread List.not_mem_nil
  · rw [((isPublishable_iff.1 h).2 c hf).1]
    exact Bool.false_ne_true

/-! ## Filters without wildcards -/

lemma ne_singleton_of_any {level : List Char} (h : level.any isWildcard = false) {c : Char}
    (hc : isWildcard c = true) : level ≠ [c] := by
  rintro rfl
  simp [hc] at h

lemma levelsMatch_iff {fs ts : List (List Char)} (h : ∀ level ∈ fs, level.any isWildcard = false) :
    levelsMatch fs ts = true ↔ fs = ts := by
  induction fs generalizing ts with
  | nil => cases ts <;> simp [levelsMatch]
  | cons level fs ih =>
    have hlevel := h level List.mem_cons_self
    have hhash : level ≠ ['#'] := ne_singleton_of_any hlevel rfl
    have hplus : level ≠ ['+'] := ne_singleton_of_any hlevel rfl
    have hrest := fun level hlevel => h level (List.mem_cons_of_mem _ hlevel)
    cases ts with
    | nil => simp [levelsMatch, hhash]
    | cons next ts =>
      unfold levelsMatch
      rw [if_neg hhash]
      by_cases hnext : level = next
      · rw [if_pos (.inr hnext), ih hrest, hnext]
        simp
      · rw [if_neg (by simp [hplus, hnext])]
        simp [hnext]

/-- A topic that `isPublishable` as a filter matches itself only. -/
lemma isMatch_iff (h : isPublishable f = true) : isMatch f t = true ↔ f = t := by
  rw [isMatch, levelsMatch_iff fun level hlevel => any_isWildcard_of_mem_levels h hlevel]
  exact ⟨levels_injective, fun h => h ▸ rfl⟩

lemma wildcardsFit_of_no_wildcards {fs : List (List Char)}
    (h : ∀ level ∈ fs, level.any isWildcard = false) : wildcardsFit fs = true := by
  induction fs with
  | nil => rfl
  | cons level fs ih =>
    have hlevel := h level List.mem_cons_self
    have hhash : level ≠ ['#'] := ne_singleton_of_any hlevel rfl
    unfold wildcardsFit
    rw [if_neg hhash, hlevel, ih fun level hlevel => h level (List.mem_cons_of_mem _ hlevel)]
    simp

lemma isFilter_of_isPublishable (h : isPublishable f = true) : isFilter f = true := by
  have hfit :=
    wildcardsFit_of_no_wildcards fun level hlevel => any_isWildcard_of_mem_levels h hlevel
  obtain ⟨hne, hall⟩ := isPublishable_iff.1 h
  have hempty : f.toList.isEmpty = false := List.isEmpty_eq_false_iff.2 hne
  have hblank : f.toList.any isBlank = false := by
    rw [List.any_eq_false]
    intro c hc
    rw [(hall c hc).2]
    exact Bool.false_ne_true
  rw [isFilter, hempty, hblank, hfit]
  rfl

end

end VoiceTurn.Topic
