import Mathlib.Algebra.GroupWithZero.Nat
import Mathlib.Tactic.Lemma
import Mathlib.Tactic.SplitIfs
import VoiceTurn.Text.Placeholder

/-!
# Skeletons

A skeleton is a list of texts with a hole between each two of them, and `v.intercalate s` is the
skeleton `s` with `v` in every hole. Filling a placeholder is putting its value into the holes of
a skeleton (`fill_eq_intercalate`). Another placeholder that is filled afterwards changes only the
texts of the skeleton, if each of its occurrences ends before a hole or begins after it
(`fill_intercalate`). That is so when all braces of the texts are closed and nothing opens a brace
in a hole (`isApart_of_isBraced`).
-/

namespace VoiceTurn.Placeholder

/-- The texts around the occurrences of the placeholder `name`. -/
def around (name : List Char) : List Char → List (List Char)
  | [] => [[]]
  | c :: cs =>
    if c = '{' ∧ (name ++ ['}']).isPrefixOf cs then [] :: around name (cs.drop (name.length + 1))
    else (around name cs).modifyHead (c :: ·)
termination_by cs => cs.length
decreasing_by all_goals simp +arith

/-- Each occurrence of a placeholder ends before a hole or begins after it, for every hole of a
skeleton. -/
def IsApart (name v : List Char) (s : List (List Char)) : Prop :=
  ∀ s₁ s₂, s = s₁ ++ s₂ → s₁ ≠ [] → s₂ ≠ [] →
    ∀ before after, v.intercalate s = before ++ written name ++ after →
      before.length + (written name).length ≤ (v.intercalate s₁).length ∨
      (v.intercalate s₁).length + v.length ≤ before.length

/-- Every opening brace is closed before another one opens. -/
def IsBraced : List Char → Prop
  | [] => True
  | c :: cs => (c = '{' → ∃ m r, cs = m ++ '}' :: r ∧ '{' ∉ m) ∧ IsBraced cs

section
variable {name v value text rest : List Char} {s s₁ s₂ : List (List Char)}

lemma length_written : (written name).length = name.length + 2 := by
  simp [written]

lemma length_intercalate :
    (v.intercalate s).length = (s.map List.length).sum + (s.length - 1) * v.length := by
  induction s with
  | nil => simp
  | cons l s ih =>
    cases s with
    | nil => simp
    | cons m s =>
      rw [List.intercalate_cons_cons, List.length_append, List.length_append, ih]
      simp only [List.map_cons, List.sum_cons, List.length_cons, Nat.add_sub_cancel, Nat.succ_mul]
      omega

lemma intercalate_append (hs₁ : s₁ ≠ []) (hs₂ : s₂ ≠ []) :
    v.intercalate (s₁ ++ s₂) = v.intercalate s₁ ++ v ++ v.intercalate s₂ := by
  induction s₁ with
  | nil => exact absurd rfl hs₁
  | cons l s₁ ih =>
    cases s₁ with
    | nil =>
      rw [List.singleton_append, List.intercalate_cons_of_ne_nil hs₂, List.intercalate_singleton]
    | cons m s₁ =>
      have hrest : m :: s₁ ++ s₂ ≠ [] := List.cons_ne_nil _ _
      rw [List.cons_append, List.intercalate_cons_of_ne_nil hrest, ih (List.cons_ne_nil _ _),
        List.intercalate_cons_cons]
      simp only [List.append_assoc]

/-! ## Filling as putting a value into holes -/

lemma around_ne_nil (name text : List Char) : around name text ≠ [] := by
  fun_induction around name text with
  | case1 => simp
  | case2 => simp
  | case3 c cs _ ih =>
    obtain ⟨l, s, hs⟩ := List.exists_cons_of_ne_nil ih
    simp [hs]

lemma intercalate_modifyHead_cons {c : Char} (hs : s ≠ []) :
    v.intercalate (s.modifyHead (c :: ·)) = c :: v.intercalate s := by
  obtain ⟨l, s, rfl⟩ := List.exists_cons_of_ne_nil hs
  cases s with
  | nil => simp
  | cons m s => simp

/-- A `fill` puts the value between the texts `around` the placeholder. -/
lemma fill_eq_intercalate : fill name v text = v.intercalate (around name text) := by
  fun_induction around name text with
  | case1 => rw [fill_nil, List.intercalate_singleton]
  | case2 c cs hit ih =>
    rw [fill, if_pos hit, ih, List.intercalate_cons_of_ne_nil (around_ne_nil _ _),
      List.nil_append]
  | case3 c cs miss ih =>
    rw [fill, if_neg miss, ih, intercalate_modifyHead_cons (around_ne_nil _ _)]

/-! ## Filling another placeholder afterwards -/

/-- A placeholder is replaced at the beginning of a text when the text begins with it. -/
lemma hit_iff {c : Char} {cs : List Char} :
    (c = '{' ∧ (name ++ ['}']).isPrefixOf cs = true) ↔ written name <+: c :: cs := by
  rw [written, List.cons_append, List.cons_prefix_cons, List.isPrefixOf_iff_prefix, eq_comm]

/-- A `fill` fills two texts one by one, if no occurrence of the placeholder reaches from the first
one into the second one. -/
lemma fill_append
    (h : ∀ before after, text ++ rest = before ++ written name ++ after →
      before.length + (written name).length ≤ text.length ∨ text.length ≤ before.length) :
    fill name value (text ++ rest) = fill name value text ++ fill name value rest := by
  fun_induction fill name value text with
  | case1 => rfl
  | case2 c cs hit ih =>
    -- a hit uses up one occurrence, and those behind it are shifted by its length
    obtain ⟨t, ht⟩ := hit_iff.1 hit
    have hdrop : cs.drop (name.length + 1) = t := by
      have hwhole := congrArg (List.drop (written name).length) ht
      rwa [List.drop_left, length_written, List.drop_succ_cons, eq_comm] at hwhole
    rw [hdrop] at ih ⊢
    rw [← ht] at h ⊢
    rw [List.append_assoc, fill_written_append, List.append_assoc, ih]
    intro before after hoccurs
    have hshift := h (written name ++ before) after (by
      rw [List.append_assoc, hoccurs]
      simp)
    simp only [List.length_append] at hshift
    omega
  | case3 c cs miss ih =>
    -- an occurrence at the beginning would stand in the first text
    have hmiss : ¬ (c = '{' ∧ (name ++ ['}']).isPrefixOf (cs ++ rest)) := by
      rw [hit_iff] at miss ⊢
      rintro ⟨after, hafter⟩
      have hfits := h [] after hafter.symm
      refine miss (List.prefix_of_prefix_length_le ⟨after, hafter⟩ (List.prefix_append _ rest) ?_)
      simpa using hfits
    rw [List.cons_append, fill, if_neg hmiss, ih, List.cons_append]
    intro before after hoccurs
    have hshift := h (c :: before) after (by rw [List.cons_append, hoccurs]; rfl)
    simp only [List.length_cons] at hshift
    omega

lemma fill_append_of_begins_after
    (h : ∀ before after, text ++ rest = before ++ written name ++ after →
      text.length ≤ before.length) :
    fill name value (text ++ rest) = text ++ fill name value rest := by
  induction text with
  | nil => rfl
  | cons c cs ih =>
    have hmiss : ¬ (c = '{' ∧ (name ++ ['}']).isPrefixOf (cs ++ rest)) := by
      rw [hit_iff]
      rintro ⟨after, hafter⟩
      have hlate := h [] after hafter.symm
      cases hlate
    rw [List.cons_append, fill, if_neg hmiss, ih, List.cons_append]
    intro before after hoccurs
    have hshift := h (c :: before) after (by rw [List.cons_append, hoccurs]; rfl)
    simpa using hshift

lemma IsApart.tail {l m : List Char} (h : IsApart name v (l :: m :: s)) :
    IsApart name v (m :: s) := by
  intro s₁ s₂ hs hs₁ hs₂ before after hoccurs
  have hshift := h (l :: s₁) s₂ (by rw [hs]; rfl) (List.cons_ne_nil _ _) hs₂ (l ++ v ++ before)
    after (by rw [List.intercalate_cons_cons, hoccurs]; simp)
  rw [List.intercalate_cons_of_ne_nil hs₁] at hshift
  simp only [List.length_append] at hshift
  omega

/-- A placeholder that `IsApart` from the holes is filled in the texts between them. -/
lemma fill_intercalate (h : IsApart name v s) :
    fill name value (v.intercalate s) = v.intercalate (s.map (fill name value)) := by
  induction s with
  | nil => exact fill_nil _ _
  | cons l s ih =>
    cases s with
    | nil => rw [List.map_singleton, List.intercalate_singleton, List.intercalate_singleton]
    | cons m s =>
      -- every occurrence ends before the first hole or begins after it
      have hfirst : ∀ before after,
          l ++ (v ++ v.intercalate (m :: s)) = before ++ written name ++ after →
          before.length + (written name).length ≤ l.length ∨
            l.length + v.length ≤ before.length := by
        intro before after hoccurs
        have hhole := h [l] (m :: s) rfl (List.cons_ne_nil _ _) (List.cons_ne_nil _ _) before after
          (by rw [List.intercalate_cons_cons, List.append_assoc, hoccurs])
        rwa [List.intercalate_singleton] at hhole
      have htext : fill name value (l ++ (v ++ v.intercalate (m :: s))) =
          fill name value l ++ fill name value (v ++ v.intercalate (m :: s)) := by
        refine fill_append fun before after hoccurs => ?_
        have := hfirst before after hoccurs
        omega
      have hhole : fill name value (v ++ v.intercalate (m :: s)) =
          v ++ fill name value (v.intercalate (m :: s)) := by
        refine fill_append_of_begins_after fun before after hoccurs => ?_
        have := hfirst (l ++ before) after (by rw [hoccurs]; simp)
        simp only [List.length_append, length_written] at this
        omega
      rw [List.intercalate_cons_cons, List.append_assoc, htext, hhole, ih h.tail]
      simp only [List.map_cons, List.intercalate_cons_cons, List.append_assoc]

lemma isApart_of_not_isInfix (h : ¬ written name <:+: v.intercalate s) : IsApart name v s := by
  intro s₁ s₂ _ _ _ before after hoccurs
  exact absurd ⟨before, after, hoccurs.symm⟩ h

/-! ## Closed braces -/

lemma mem_takeWhile_iff :
    '}' ∈ text.takeWhile (· ≠ '{') ↔ ∃ m r, text = m ++ '}' :: r ∧ '{' ∉ m := by
  constructor
  · intro hmem
    obtain ⟨m, r, hr⟩ := List.append_of_mem hmem
    refine ⟨m, r ++ text.dropWhile (· ≠ '{'), ?_, ?_⟩
    · calc text = text.takeWhile (· ≠ '{') ++ text.dropWhile (· ≠ '{') :=
            List.takeWhile_append_dropWhile.symm
        _ = m ++ '}' :: (r ++ text.dropWhile (· ≠ '{')) := by
            rw [hr, List.append_assoc, List.cons_append]
    · intro hopen
      have hin : '{' ∈ text.takeWhile (· ≠ '{') := hr ▸ List.mem_append_left _ hopen
      have hall := List.all_eq_true.1 (List.all_takeWhile (p := (· ≠ '{')) (l := text)) _ hin
      simp at hall
  · rintro ⟨m, r, rfl, hm⟩
    have hkept : ∀ c ∈ m, decide (c ≠ '{') = true := by
      intro c hc
      exact decide_eq_true fun h => hm (h ▸ hc)
    rw [List.takeWhile_append_of_pos hkept, List.takeWhile_cons_of_pos (by decide)]
    exact List.mem_append_right m List.mem_cons_self

instance decidableIsBraced : (text : List Char) → Decidable (IsBraced text)
  | [] => isTrue trivial
  | c :: cs =>
    have := decidableIsBraced cs
    decidable_of_iff ((c = '{' → '}' ∈ cs.takeWhile (· ≠ '{')) ∧ IsBraced cs)
      (and_congr_left' (imp_congr_right fun _ => mem_takeWhile_iff))

lemma isBraced_of_not_mem (h : '{' ∉ text) : IsBraced text := by
  induction text with
  | nil => trivial
  | cons c cs ih =>
    rw [List.mem_cons, not_or] at h
    exact ⟨fun hc => absurd hc.symm h.1, ih h.2⟩

lemma IsBraced.append (htext : IsBraced text) (hrest : IsBraced rest) :
    IsBraced (text ++ rest) := by
  induction text with
  | nil => exact hrest
  | cons c cs ih =>
    refine ⟨fun hc => ?_, ih htext.2⟩
    obtain ⟨m, r, rfl, hm⟩ := htext.1 hc
    exact ⟨m, r ++ rest, by simp, hm⟩

lemma IsBraced.of_append (h : IsBraced (text ++ rest)) : IsBraced rest := by
  induction text with
  | nil => exact h
  | cons c cs ih => exact ih h.2

lemma isBraced_intercalate (hv : '{' ∉ v) (hs : ∀ l ∈ s, IsBraced l) :
    IsBraced (v.intercalate s) := by
  induction s with
  | nil => trivial
  | cons l s ih =>
    obtain ⟨hl, hrest⟩ := List.forall_mem_cons.1 hs
    cases s with
    | nil => rwa [List.intercalate_singleton]
    | cons m s =>
      rw [List.intercalate_cons_cons]
      exact (hl.append (isBraced_of_not_mem hv)).append (ih hrest)

lemma around_append_of_not_mem (h : '{' ∉ text) :
    around name (text ++ rest) = (around name rest).modifyHead (text ++ ·) := by
  induction text with
  | nil => exact (congrFun List.modifyHead_id _).symm
  | cons c cs ih =>
    rw [List.mem_cons, not_or] at h
    rw [List.cons_append, around, if_neg fun hit => h.1 hit.1.symm, ih h.2,
      List.modifyHead_modifyHead]
    rfl

/-- The texts `around` a placeholder in a text that `IsBraced` are braced as well. -/
lemma isBraced_around (h : IsBraced text) : ∀ l ∈ around name text, IsBraced l := by
  fun_induction around name text with
  | case1 => simp [IsBraced]
  | case2 c cs hit ih =>
    have hrest : IsBraced (cs.drop (name.length + 1)) := by
      rw [← List.take_append_drop (name.length + 1) cs] at h
      exact IsBraced.of_append h.2
    exact List.forall_mem_cons.2 ⟨trivial, ih hrest⟩
  | case3 c cs miss ih =>
    obtain ⟨l, s, hs⟩ := List.exists_cons_of_ne_nil (around_ne_nil name cs)
    rw [hs] at ih ⊢
    obtain ⟨hl, hrest⟩ := List.forall_mem_cons.1 (ih h.2)
    refine List.forall_mem_cons.2 ⟨⟨fun hc => ?_, hl⟩, hrest⟩
    -- the closing brace comes before the first occurrence
    obtain ⟨m, r, rfl, hm⟩ := h.1 hc
    have hopen : '{' ∉ m ++ ['}'] := by simpa using hm
    obtain ⟨l', s', hr⟩ := List.exists_cons_of_ne_nil (around_ne_nil name r)
    rw [← List.singleton_append, ← List.append_assoc, around_append_of_not_mem hopen, hr,
      List.modifyHead_cons, List.cons.injEq] at hs
    exact ⟨m, l', by rw [← hs.1]; simp, hm⟩

/-- A `fill` with a value that opens no brace leaves all braces closed. -/
lemma isBraced_fill (hvalue : '{' ∉ value) (h : IsBraced text) :
    IsBraced (fill name value text) := by
  rw [fill_eq_intercalate]
  exact isBraced_intercalate hvalue (isBraced_around h)

lemma length_le_of_append_brace_eq {after m r : List Char} (hname : '}' ∉ name)
    (h : name ++ '}' :: after = m ++ '}' :: r) : name.length ≤ m.length := by
  rcases List.append_eq_append_iff.1 h with ⟨gap, rfl, -⟩ | ⟨more, rfl, hmore⟩
  · rw [List.length_append]
    omega
  · cases more with
    | nil => exact Nat.le_of_eq (congrArg List.length (List.append_nil m))
    | cons c more =>
      obtain ⟨rfl, -⟩ := List.cons.inj hmore
      exact absurd (List.mem_append_right m List.mem_cons_self) hname

lemma exists_of_append_brace_eq {front before tail : List Char} (hv : '{' ∉ v)
    (h : front ++ v ++ rest = before ++ '{' :: tail) :
    front.length + v.length ≤ before.length ∨
      ∃ t, front = before ++ '{' :: t ∧ tail = t ++ v ++ rest := by
  rcases List.append_eq_append_iff.1 h with ⟨gap, rfl, -⟩ | ⟨opened, hopened, htail⟩
  · left
    rw [List.length_append, List.length_append]
    exact Nat.le_add_right _ _
  cases opened with
  | nil =>
    left
    rw [List.append_nil] at hopened
    exact Nat.le_of_eq (hopened ▸ List.length_append.symm)
  | cons c opened =>
    -- the brace stands before the end of the hole, so it stands before its beginning
    rw [List.cons_append, List.cons.injEq] at htail
    obtain ⟨rfl, rfl⟩ := htail
    right
    rcases List.append_eq_append_iff.1 hopened with ⟨gap, -, rfl⟩ | ⟨t, hfront, ht⟩
    · exact absurd (List.mem_append_right gap List.mem_cons_self) hv
    cases t with
    | nil =>
      rw [List.nil_append] at ht
      exact absurd (ht ▸ List.mem_cons_self) hv
    | cons c t =>
      rw [List.cons_append, List.cons.injEq] at ht
      obtain ⟨rfl, rfl⟩ := ht
      exact ⟨t, hfront, rfl⟩

/-- When all texts of a skeleton are braced and nothing opens a brace in its holes, each placeholder
stands apart from the holes. -/
lemma isApart_of_isBraced (hname : '}' ∉ name) (hv : '{' ∉ v) (hs : ∀ l ∈ s, IsBraced l) :
    IsApart name v s := by
  rintro s₁ s₂ rfl hs₁ hs₂ before after hoccurs
  have hfront : IsBraced (v.intercalate s₁) :=
    isBraced_intercalate hv fun l hl => hs l (List.mem_append_left _ hl)
  have hlayout : before ++ written name ++ after = before ++ '{' :: (name ++ '}' :: after) := by
    simp [written]
  rw [intercalate_append hs₁ hs₂, hlayout] at hoccurs
  rcases exists_of_append_brace_eq hv hoccurs with hlate | ⟨t, ht, hrest⟩
  · exact .inr hlate
  · left
    -- the brace is closed before the hole, and there the name ends at the latest
    rw [ht] at hfront ⊢
    obtain ⟨m, r, rfl, -⟩ := hfront.of_append.1 rfl
    have hends : name ++ '}' :: after = m ++ '}' :: (r ++ v ++ v.intercalate s₂) := by
      rw [hrest]
      simp
    have hfits := length_le_of_append_brace_eq hname hends
    simp only [length_written, List.length_append, List.length_cons]
    omega

end

end VoiceTurn.Placeholder
