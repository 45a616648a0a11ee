import Mathlib.Data.List.Forall2
import Mathlib.Tactic.Lemma
import Mathlib.Tactic.SplitIfs
import VoiceTurn.Topic.Filter

/-!
# The meaning of filters

The levels of a text are its pieces between slashes (`levels_eq_splitOn`). A text can be subscribed
to when every wildcard in it is a level of its own, and `#` the last one (`wildcardsFit_iff`). What
a filter matches is told level by level: `+` stands for one level of the topic, and `#` at the end
for all that remain. A filter that goes on behind a `#` matches nothing.
-/

namespace VoiceTurn.Topic

/-! ## Levels -/

lemma levelsFrom_eq_splitOnPPrepend (read cs : List Char) :
    levelsFrom read cs = cs.splitOnPPrepend (· == '/') read := by
  induction cs generalizing read with
  | nil => rw [levelsFrom, List.splitOnPPrepend_nil]
  | cons c cs ih =>
    rw [levelsFrom, List.splitOnPPrepend_cons_eq_if, ih (c :: read), ih []]
    by_cases hc : c = '/'
    · rw [if_pos hc, if_pos (beq_iff_eq.2 hc)]
      rfl
    · rw [if_neg hc, if_neg (mt beq_iff_eq.1 hc)]

/-- The `levels` of a text are its pieces between slashes. -/
lemma levels_eq_splitOn (s : String) : levels s = s.toList.splitOn '/' :=
  levelsFrom_eq_splitOnPPrepend [] s.toList

/-! ## Filters that can be subscribed to -/

/-- The wildcards of a level are the whole level, and `#` comes only where nothing follows. -/
def WildcardsStandAlone (level : List Char) (rest : List (List Char)) : Prop :=
  ('+' ∈ level → level = ['+']) ∧ ('#' ∈ level → level = ['#'] ∧ rest = [])

lemma any_isWildcard_eq_false_iff {level : List Char} :
    level.any isWildcard = false ↔ '+' ∉ level ∧ '#' ∉ level := by
  rw [List.any_eq_false]
  constructor
  · intro h
    exact ⟨fun hmem => h '+' hmem rfl, fun hmem => h '#' hmem rfl⟩
  · rintro ⟨hplus, hhash⟩ c hc hwild
    rw [isWildcard, Bool.or_eq_true, decide_eq_true_iff, decide_eq_true_iff] at hwild
    rcases hwild with rfl | rfl
    · exact hplus hc
    · exact hhash hc

lemma wildcardsFit_cons_iff {level : List Char} {rest : List (List Char)} :
    wildcardsFit (level :: rest) = true ↔
      WildcardsStandAlone level rest ∧ wildcardsFit rest = true := by
  rw [wildcardsFit, Bool.and_eq_true, WildcardsStandAlone]
  refine and_congr_left fun _ => ?_
  by_cases hhash : level = ['#']
  · subst hhash
    simp
  · rw [if_neg hhash, Bool.or_eq_true, decide_eq_true_iff, Bool.not_eq_true',
      any_isWildcard_eq_false_iff]
    constructor
    · rintro (rfl | ⟨hplus, hno⟩)
      · simp
      · exact ⟨fun h => absurd h hplus, fun h => absurd h hno⟩
    · rintro ⟨hplus, hno⟩
      by_cases hmem : '+' ∈ level
      · exact .inl (hplus hmem)
      · exact .inr ⟨hmem, fun h => hhash (hno h).1⟩

/-- The spec of `wildcardsFit`: `WildcardsStandAlone` at every level. -/
lemma wildcardsFit_iff {fs : List (List Char)} :
    wildcardsFit fs = true ↔
      ∀ before level rest, fs = before ++ level :: rest → WildcardsStandAlone level rest := by
  induction fs with
  | nil => simp [wildcardsFit]
  | cons level fs ih =>
    rw [wildcardsFit_cons_iff, ih]
    constructor
    · rintro ⟨hlevel, hrest⟩ before next rest h
      cases before with
      | nil =>
        obtain ⟨rfl, rfl⟩ := List.cons.inj h
        exact hlevel
      | cons _ before => exact hrest before next rest (List.cons.inj h).2
    · intro h
      refine ⟨h [] level fs rfl, fun before next rest heq => ?_⟩
      exact h (level :: before) next rest (congrArg (level :: ·) heq)

/-! ## What a filter matches -/

/-- A level of a filter stands for a level of a topic. -/
def Admits (f t : List Char) : Prop := f = ['+'] ∨ f = t

section
variable {f : List Char} {fs ts : List (List Char)}

/-- Every level but `#` needs a level that it stands for. -/
lemma levelsMatch_cons_iff (h : f ≠ ['#']) :
    levelsMatch (f :: fs) ts = true ↔
      ∃ t rest, Admits f t ∧ levelsMatch fs rest = true ∧ ts = t :: rest := by
  cases ts with
  | nil => simp [levelsMatch, h]
  | cons t ts =>
    rw [levelsMatch, if_neg h]
    by_cases hadmits : f = ['+'] ∨ f = t
    · rw [if_pos hadmits]
      constructor
      · intro hrest
        exact ⟨t, ts, hadmits, hrest, rfl⟩
      · rintro ⟨_, _, -, hrest, heq⟩
        obtain ⟨rfl, rfl⟩ := List.cons.inj heq
        exact hrest
    · rw [if_neg hadmits]
      constructor
      · intro hfalse
        cases hfalse
      · rintro ⟨_, _, hadmits', -, heq⟩
        obtain ⟨rfl, rfl⟩ := List.cons.inj heq
        exact absurd hadmits' hadmits

/-- Without `#` the levels of a filter stand for the levels of the topic one by one. -/
lemma levelsMatch_iff_of_not_mem (h : ['#'] ∉ fs) :
    levelsMatch fs ts = true ↔ List.Forall₂ Admits fs ts := by
  induction fs generalizing ts with
  | nil => cases ts <;> simp [levelsMatch]
  | cons f fs ih =>
    obtain ⟨hf, hfs⟩ := not_or.1 (mt List.mem_cons.2 h)
    rw [levelsMatch_cons_iff (Ne.symm hf), List.forall₂_cons_left_iff]
    simp only [ih hfs]

/-- With `#` at the end they stand for the first levels of the topic. -/
lemma levelsMatch_concat_iff (h : ['#'] ∉ fs) :
    levelsMatch (fs ++ [['#']]) ts = true ↔
      fs.length ≤ ts.length ∧ List.Forall₂ Admits fs (ts.take fs.length) := by
  induction fs generalizing ts with
  | nil => cases ts <;> simp [levelsMatch]
  | cons f fs ih =>
    obtain ⟨hf, hfs⟩ := not_or.1 (mt List.mem_cons.2 h)
    rw [List.cons_append, levelsMatch_cons_iff (Ne.symm hf)]
    constructor
    · rintro ⟨t, rest, hadmits, hrest, rfl⟩
      obtain ⟨hlength, hall⟩ := (ih hfs).1 hrest
      exact ⟨Nat.succ_le_succ hlength, .cons hadmits hall⟩
    · rintro ⟨hlength, hall⟩
      cases ts with
      | nil => cases hlength
      | cons t ts =>
        obtain ⟨hadmits, hall⟩ := List.forall₂_cons.1 hall
        exact ⟨t, ts, hadmits, (ih hfs).2 ⟨Nat.le_of_succ_le_succ hlength, hall⟩, rfl⟩

/-- Nothing matches a filter that goes on behind a `#`. -/
lemma levelsMatch_of_inner (h : ['#'] ∈ fs) (f : List Char) :
    levelsMatch (fs ++ [f]) ts = false := by
  induction fs generalizing ts with
  | nil => cases h
  | cons g fs ih =>
    by_cases hg : g = ['#']
    · subst hg
      cases ts <;> simp [levelsMatch]
    · have hfs : ['#'] ∈ fs := (List.mem_cons.1 h).resolve_left (Ne.symm hg)
      rw [Bool.eq_false_iff, List.cons_append, Ne, levelsMatch_cons_iff hg]
      rintro ⟨t, rest, -, hrest, -⟩
      rw [ih hfs] at hrest
      cases hrest

/-- The relation `Admits`, one by one, told by the places of the levels. -/
lemma forall₂_admits_iff :
    List.Forall₂ Admits fs ts ↔
      fs.length = ts.length ∧ ∀ i < fs.length, fs[i]? = some ['+'] ∨ fs[i]? = ts[i]? := by
  rw [List.forall₂_iff_get]
  refine and_congr_right fun hlength => forall_congr' fun i => ?_
  constructor
  · intro h hi
    have hi' : i < ts.length := hlength ▸ hi
    rw [List.getElem?_eq_getElem hi, List.getElem?_eq_getElem hi']
    exact (h hi hi').imp (congrArg some) (congrArg some)
  · intro h hi hi'
    have hlevel := h hi
    rw [List.getElem?_eq_getElem hi, List.getElem?_eq_getElem hi'] at hlevel
    exact hlevel.imp (fun h => Option.some.inj h) (fun h => Option.some.inj h)

/-- With `#` as the last level, the levels before it stand for the first levels of the topic. -/
lemma levelsMatch_iff_of_getLast? (hlast : fs.getLast? = some ['#'])
    (hinner : ['#'] ∉ fs.dropLast) :
    levelsMatch fs ts = true ↔ fs.length - 1 ≤ ts.length ∧
      ∀ i < fs.length - 1, fs[i]? = some ['+'] ∨ fs[i]? = ts[i]? := by
  obtain ⟨before, rfl⟩ := List.getLast?_eq_some_iff.1 hlast
  rw [List.dropLast_concat] at hinner
  rw [List.length_append, List.length_singleton, Nat.add_sub_cancel,
    levelsMatch_concat_iff hinner, forall₂_admits_iff]
  refine and_congr_right fun hle => ?_
  rw [List.length_take, Nat.min_eq_left hle]
  have hlevel {i : Nat} (hi : i < before.length) :
      (before ++ [['#']])[i]? = before[i]? ∧ (ts.take before.length)[i]? = ts[i]? :=
    ⟨List.getElem?_append_left hi, List.getElem?_take_of_lt hi⟩
  constructor
  · rintro ⟨-, h⟩ i hi
    rw [(hlevel hi).1, ← (hlevel hi).2]
    exact h i hi
  · intro h
    refine ⟨rfl, fun i hi => ?_⟩
    rw [← (hlevel hi).1, (hlevel hi).2]
    exact h i hi

/-- A filter whose `#` is not its last level matches nothing. -/
lemma levelsMatch_of_mem_dropLast (h : ['#'] ∈ fs.dropLast) : levelsMatch fs ts = false := by
  have hne : fs ≠ [] := by
    rintro rfl
    cases h
  rw [← List.dropLast_append_getLast hne]
  exact levelsMatch_of_inner h _

end

/-- What `isFilter` and `isMatch` mean for the pieces between slashes. With `#` as its last level
only, a filter matches the topics that begin with levels for those before it; without `#`, those
that have a level for each of its own, and no more; with `#` before its last level, nothing. -/
theorem filter_means_its_levels (f : String) :
    (isFilter f = true ↔
      f ≠ "" ∧ (∀ c ∈ f.toList, isBlank c = false) ∧
      ∀ before level rest, f.toList.splitOn '/' = before ++ level :: rest →
        ('+' ∈ level → level = ['+']) ∧ ('#' ∈ level → level = ['#'] ∧ rest = [])) ∧
    ∀ t : String,
      let fs := f.toList.splitOn '/'
      let ts := t.toList.splitOn '/'
      (fs.getLast? = some ['#'] → ['#'] ∉ fs.dropLast →
        (isMatch f t = true ↔ fs.length - 1 ≤ ts.length ∧
          ∀ i < fs.length - 1, fs[i]? = some ['+'] ∨ fs[i]? = ts[i]?)) ∧
      (['#'] ∉ fs →
        (isMatch f t = true ↔ fs.length = ts.length ∧
          ∀ i < fs.length, fs[i]? = some ['+'] ∨ fs[i]? = ts[i]?)) ∧
      (['#'] ∈ fs.dropLast → isMatch f t = false) := by
  refine ⟨?_, fun t => ?_⟩
  · rw [isFilter, Bool.and_eq_true, Bool.and_eq_true, wildcardsFit_iff, levels_eq_splitOn,
      and_assoc]
    refine and_congr ?_ (and_congr ?_ Iff.rfl)
    · rw [Bool.not_eq_true', List.isEmpty_eq_false_iff, Ne, String.toList_eq_nil_iff]
    · rw [Bool.not_eq_true', List.any_eq_false]
      simp only [Bool.not_eq_true]
  · intro fs ts
    have hmatch : isMatch f t = levelsMatch fs ts := by
      rw [isMatch, levels_eq_splitOn, levels_eq_splitOn]
    rw [hmatch]
    refine ⟨levelsMatch_iff_of_getLast?, fun hnone => ?_, levelsMatch_of_mem_dropLast⟩
    rw [levelsMatch_iff_of_not_mem hnone, forall₂_admits_iff]

/-- A level may be empty, and `#` stands for no level as well. With something behind the `#` a text
is no filter, and matches nothing. -/
theorem filter_means_its_levels_of_hall :
    isMatch "hall/+/#" "hall/" = true ∧ isMatch "hall/+/#" "hall" = false ∧
      isMatch "hall/+" "hall/a" = true ∧
      isFilter "hall/#/x" = false ∧ isMatch "hall/#/x" "hall/a/x" = false := by
  obtain ⟨-, hopen⟩ := filter_means_its_levels "hall/+/#"
  obtain ⟨-, hplain⟩ := filter_means_its_levels "hall/+"
  obtain ⟨hfilter, hnothing⟩ := filter_means_its_levels "hall/#/x"
  obtain ⟨hempty, -, -⟩ := hopen "hall/"
  obtain ⟨hshort, -, -⟩ := hopen "hall"
  obtain ⟨-, hone, -⟩ := hplain "hall/a"
  obtain ⟨-, -, hinner⟩ := hnothing "hall/a/x"
  refine ⟨?_, ?_, ?_, ?_, hinner (by decide +kernel)⟩
  · exact (hempty (by decide +kernel) (by decide +kernel)).2 (by decide +kernel)
  · rw [← Bool.not_eq_true, hshort (by decide +kernel) (by decide +kernel)]
    decide +kernel
  · exact (hone (by decide +kernel)).2 (by decide +kernel)
  · rw [← Bool.not_eq_true, hfilter]
    rintro ⟨-, -, hlevels⟩
    obtain ⟨-, hlast⟩ := hlevels ["hall".toList] "#".toList ["x".toList] (by decide +kernel)
    exact absurd (hlast (by decide +kernel)).2 (by decide +kernel)

end VoiceTurn.Topic
