import Mathlib.Data.List.Basic
import Mathlib.Tactic.Lemma
import Mathlib.Tactic.SplitIfs
import VoiceTurn.Proofs.Line.Framing

/-!
# The lines of a stream

A stream begins with its first line, and its segments are this line and the segments of what
follows (`segments_eq_cons`). So they make up the whole stream, each ends with the only newline in
it, and at most the last one has none (`isCut_segments`).
-/

namespace VoiceTurn.Line

/-! ## The first line of a stream -/

/-- The bytes up to the first `newline`, with it, or all of them when there is none. -/
def firstLine : Bytes → Bytes
  | [] => []
  | b :: bs => if b = newline then [b] else b :: firstLine bs

section
variable {x y : Bytes}

lemma firstLine_append_of_not_mem (h : newline ∉ x) : firstLine (x ++ y) = x ++ firstLine y := by
  induction x with
  | nil => rfl
  | cons b x ih =>
    rw [List.mem_cons, not_or] at h
    rw [List.cons_append, firstLine, if_neg (Ne.symm h.1), ih h.2, List.cons_append]

lemma firstLine_of_not_mem (h : newline ∉ x) : firstLine x = x := by
  have happend := firstLine_append_of_not_mem (y := []) h
  rwa [firstLine, List.append_nil] at happend

lemma firstLine_append_line (h : newline ∉ x) : firstLine (x ++ newline :: y) = x ++ [newline] := by
  rw [firstLine_append_of_not_mem h, firstLine, if_pos rfl]

lemma exists_line_of_mem (h : newline ∈ x) :
    ∃ body rest, newline ∉ body ∧ x = body ++ newline :: rest := by
  obtain ⟨body, rest, hx, hbody⟩ := List.eq_append_cons_of_mem h
  exact ⟨body, rest, hbody, hx⟩

lemma firstLine_append_of_mem (h : newline ∈ x) : firstLine (x ++ y) = firstLine x := by
  obtain ⟨body, rest, hbody, rfl⟩ := exists_line_of_mem h
  rw [List.append_assoc, List.cons_append, firstLine_append_line hbody, firstLine_append_line hbody]

lemma isTerminated_append (hy : isTerminated y = true) : isTerminated (x ++ y) = true := by
  simp only [isTerminated, decide_eq_true_eq] at hy ⊢
  rw [List.getLast?_append, hy]
  rfl

lemma isTerminated_of_not_mem (h : newline ∉ x) : isTerminated x = false := by
  simp only [isTerminated, decide_eq_false_iff_not]
  intro hlast
  exact h (List.mem_of_getLast? hlast)

lemma isTerminated_firstLine (h : newline ∈ x) : isTerminated (firstLine x) = true := by
  obtain ⟨body, rest, hbody, rfl⟩ := exists_line_of_mem h
  rw [firstLine_append_line hbody]
  simp [isTerminated]

lemma isPrefix_firstLine (x : Bytes) : firstLine x <+: x := by
  by_cases h : newline ∈ x
  · obtain ⟨body, rest, hbody, rfl⟩ := exists_line_of_mem h
    rw [firstLine_append_line hbody]
    exact ⟨rest, by simp⟩
  · have hall : firstLine x = x := firstLine_of_not_mem h
    exact ⟨[], by rw [hall, List.append_nil]⟩

lemma firstLine_append_drop (x : Bytes) : firstLine x ++ x.drop (firstLine x).length = x :=
  List.prefix_iff_eq_append.1 (isPrefix_firstLine x)

lemma firstLine_ne_nil (h : x ≠ []) : firstLine x ≠ [] := by
  cases x with
  | nil => exact absurd rfl h
  | cons b x =>
    rw [firstLine]
    split_ifs <;> exact List.cons_ne_nil _ _

/-- Only the last byte of `firstLine` can be a newline. -/
lemma newline_not_mem_dropLast_firstLine (x : Bytes) : newline ∉ (firstLine x).dropLast := by
  by_cases h : newline ∈ x
  · obtain ⟨body, rest, hbody, rfl⟩ := exists_line_of_mem h
    rw [firstLine_append_line hbody, List.dropLast_concat]
    exact hbody
  · rw [firstLine_of_not_mem h]
    intro hmem
    exact h (List.dropLast_subset x hmem)

/-! ## The first segment -/

lemma segmentsFrom_of_not_mem {read : Bytes} (hx : newline ∉ x) (hne : read.reverse ++ x ≠ []) :
    segmentsFrom read x = [read.reverse ++ x] := by
  induction x generalizing read with
  | nil =>
    have hread : ¬ read.isEmpty = true := by
      rintro hempty
      obtain rfl := List.isEmpty_iff.1 hempty
      exact hne rfl
    rw [segmentsFrom, if_neg hread, List.append_nil]
  | cons b x ih =>
    rw [List.mem_cons, not_or] at hx
    rw [segmentsFrom, if_neg (Ne.symm hx.1), ih hx.2 (by simp)]
    simp

/-- The segments of a stream are its `firstLine` and the segments of what follows. -/
lemma segments_eq_cons (h : x ≠ []) :
    segments x = firstLine x :: segments (x.drop (firstLine x).length) := by
  by_cases hx : newline ∈ x
  · obtain ⟨body, rest, hbody, rfl⟩ := exists_line_of_mem hx
    have hdrop : (body ++ newline :: rest).drop (body ++ [newline]).length = rest := by
      rw [List.append_cons body newline rest]
      exact List.drop_left
    rw [segments_line_append hbody, firstLine_append_line hbody, hdrop]
  · have hall : segments x = [x] := segmentsFrom_of_not_mem hx h
    rw [hall, firstLine_of_not_mem hx, List.drop_length]
    rfl

end

/-! ## All segments -/

/-- Induction over the lines of a stream: `P` holds at the end, and for a stream when it holds for
what follows its `firstLine`. -/
lemma stream_induction {P : Bytes → Prop} (hend : P [])
    (hline : ∀ x, x ≠ [] → P (x.drop (firstLine x).length) → P x) (x : Bytes) : P x := by
  induction hlength : x.length using Nat.strongRecOn generalizing x with
  | ind n ih =>
    by_cases hx : x = []
    · rw [hx]
      exact hend
    · have hpos : 0 < (firstLine x).length := List.length_pos_iff.2 (firstLine_ne_nil hx)
      have hxpos : 0 < x.length := List.length_pos_iff.2 hx
      have hshorter : (x.drop (firstLine x).length).length < n := by
        rw [List.length_drop]
        omega
      exact hline x hx (ih _ hshorter _ rfl)

/-- The `lines` make up a stream, with a newline at the end of each of them, but for the last one,
and nowhere else. -/
structure IsCut (stream : Bytes) (lines : List Bytes) : Prop where
  whole : lines.flatten = stream
  line : ∀ l ∈ lines, l ≠ [] ∧ newline ∉ l.dropLast
  ended : ∀ l ∈ lines.dropLast, isTerminated l = true

lemma isCut_segments (stream : Bytes) : IsCut stream (segments stream) := by
  apply stream_induction (P := fun stream => IsCut stream (segments stream))
  · exact ⟨rfl, List.forall_mem_nil _, List.forall_mem_nil _⟩
  · intro x hx ih
    obtain ⟨hwhole, hline, hended⟩ := ih
    rw [segments_eq_cons hx]
    refine ⟨?_, ?_, ?_⟩
    · rw [List.flatten_cons, hwhole, firstLine_append_drop]
    · intro l hl
      rcases List.mem_cons.1 hl with rfl | hl
      · exact ⟨firstLine_ne_nil hx, newline_not_mem_dropLast_firstLine x⟩
      · exact hline l hl
    · intro l hl
      by_cases hrest : segments (x.drop (firstLine x).length) = []
      · rw [hrest, List.dropLast_singleton] at hl
        exact absurd hl List.not_mem_nil
      · rw [List.dropLast_cons_of_ne_nil hrest] at hl
        rcases List.mem_cons.1 hl with rfl | hl
        · -- if the first line had no newline, nothing would follow it
          apply isTerminated_firstLine
          by_contra hnot
          apply hrest
          rw [firstLine_of_not_mem hnot, List.drop_length]
          rfl
        · exact hended l hl

end VoiceTurn.Line
