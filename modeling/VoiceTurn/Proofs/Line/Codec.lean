import Mathlib.Tactic.ByContra
import Mathlib.Tactic.Lemma
import Mathlib.Tactic.SplitIfs
import VoiceTurn.Line.Codec
import VoiceTurn.Proofs.Topic.Filter

/-!
# Lines as they are written and read

What is written is one line, and reading gives back what has been written. The reason is that the
bytes of a publishable topic are never blank: a byte below 0x80 in the encoding of a text is a
character of the text (`Utf8.exists_char_of_mem_encode`), and a publishable topic has no blank
characters.
-/

namespace VoiceTurn

/-! ## Bytes of a text -/

namespace Utf8

lemma encode_eq_flatMap (s : String) : encode s = s.toList.flatMap String.utf8EncodeChar := by
  rw [encode, ← String.utf8Encode_toList, List.utf8Encode, List.data_toByteArray]

/-- A byte below 0x80 in `utf8EncodeChar c` is the character `c` itself. -/
lemma toNat_of_mem_utf8EncodeChar {c : Char} {b : UInt8} (h : b ∈ String.utf8EncodeChar c)
    (hb : b.toNat < 128) : b.toNat = c.toNat := by
  have hc : c.toNat = c.val.toNat := rfl
  have hvalue : c.val.toNat < 2 ^ 32 := c.val.toNat_lt
  simp only [String.utf8EncodeChar] at h
  split_ifs at h with h1 h2 h3
  -- only an encoding of one byte has a byte without the highest bit
  all_goals
    simp only [List.mem_cons, List.not_mem_nil, or_false, ← UInt8.toNat_inj,
      UInt8.toNat_ofNat'] at h
    omega

/-- A byte below 0x80 in `encode s` is one of the characters of `s`. -/
lemma exists_char_of_mem_encode {s : String} {b : UInt8} (h : b ∈ encode s)
    (hb : b.toNat < 128) : ∃ c ∈ s.toList, c.toNat = b.toNat := by
  rw [encode_eq_flatMap] at h
  obtain ⟨c, hc, hbc⟩ := List.mem_flatMap.1 h
  exact ⟨c, hc, (toNat_of_mem_utf8EncodeChar hbc hb).symm⟩

lemma utf8EncodeChar_ne_nil (c : Char) : String.utf8EncodeChar c ≠ [] := by
  apply List.length_pos_iff.1
  rw [String.length_utf8EncodeChar]
  exact c.utf8Size_pos

lemma encode_eq_nil_iff (s : String) : encode s = [] ↔ s.toList = [] := by
  rw [encode_eq_flatMap, List.flatMap_eq_nil_iff]
  constructor
  · intro h
    by_contra hne
    obtain ⟨c, hc⟩ := List.exists_mem_of_ne_nil _ hne
    exact utf8EncodeChar_ne_nil c (h c hc)
  · intro h c hc
    rw [h] at hc
    exact absurd hc List.not_mem_nil

end Utf8

namespace Line

/-! ## Blank bytes -/

lemma isPadding_of_isBreak {b : UInt8} (h : isBreak b = true) : isPadding b = true := by
  simp only [isBreak, isPadding, Bool.or_eq_true, decide_eq_true_eq] at h ⊢
  rcases h with h | h
  · exact .inl (.inl (.inr h))
  · exact .inr h

/-- The bytes of an `isPublishable` topic are not blank. -/
lemma isPadding_eq_false_of_mem_encode {t : String} (ht : Topic.isPublishable t = true) {b : UInt8}
    (hb : b ∈ Utf8.encode t) : isPadding b = false := by
  by_contra hpadding
  rw [Bool.not_eq_false] at hpadding
  simp only [isPadding, Bool.or_eq_true, decide_eq_true_eq] at hpadding
  have hsmall : b.toNat < 128 := by
    rcases hpadding with (((rfl | rfl) | rfl) | rfl) | rfl <;> decide
  obtain ⟨c, hc, hcb⟩ := Utf8.exists_char_of_mem_encode hb hsmall
  -- the character is blank, and a publishable topic has no such character
  have hblank : isBlank c = true := by
    unfold isBlank
    rw [hcb]
    rcases hpadding with (((rfl | rfl) | rfl) | rfl) | rfl <;> decide
  have hnotBlank := ((Topic.isPublishable_iff.1 ht).2 c hc).2
  rw [hblank] at hnotBlank
  cases hnotBlank

/-! ## Breaks at the end of a line -/

lemma trimBreaks_append_newline (line : Bytes) :
    trimBreaks (line ++ [newline]) = trimBreaks line := by
  rw [trimBreaks, List.reverse_append]
  rfl

lemma trimBreaks_eq_self {line : Bytes} (h : ∀ b ∈ line.getLast?, isBreak b = false) :
    trimBreaks line = line := by
  rw [trimBreaks]
  cases hline : line.reverse with
  | nil => rw [List.reverse_eq_nil_iff.1 hline]; rfl
  | cons b bs =>
    have hlast : line.getLast? = some b := by
      rw [← List.head?_reverse, hline]
      rfl
    rw [List.dropWhile_cons_of_neg (by simp [h b hlast]), ← hline, List.reverse_reverse]

lemma trimBreaks_subset (line : Bytes) : trimBreaks line ⊆ line := by
  intro b hb
  rw [trimBreaks, List.mem_reverse] at hb
  exact List.mem_reverse.1 ((List.dropWhile_suffix _).subset hb)

lemma trimBreaks_concat (line : Bytes) (b : UInt8) :
    trimBreaks (line ++ [b]) = if isBreak b then trimBreaks line else line ++ [b] := by
  unfold trimBreaks
  rw [List.reverse_append, List.reverse_singleton, List.singleton_append, List.dropWhile_cons]
  split <;> simp

/-- A line whose only newline is at its end has none after `trimBreaks`. -/
lemma newline_not_mem_trimBreaks {line : Bytes} (h : newline ∉ line.dropLast) :
    newline ∉ trimBreaks line := by
  rcases List.eq_nil_or_concat line with rfl | ⟨body, b, rfl⟩
  · exact List.not_mem_nil
  · rw [List.concat_eq_append, List.dropLast_concat] at h
    rw [List.concat_eq_append, trimBreaks_concat]
    split_ifs with hb
    · exact fun hmem => h (trimBreaks_subset body hmem)
    · intro hmem
      rcases List.mem_append.1 hmem with hmem | hmem
      · exact h hmem
      · obtain rfl := List.mem_singleton.1 hmem
        exact hb rfl

/-! ## Writing -/

def carriageReturn : UInt8 := 0x0D

lemma any_isBreak_eq_false_iff {bytes : Bytes} :
    bytes.any isBreak = false ↔ newline ∉ bytes ∧ carriageReturn ∉ bytes := by
  simp only [List.any_eq_false, isBreak, Bool.or_eq_true, decide_eq_true_eq, not_or]
  constructor
  · intro h
    exact ⟨fun hmem => (h _ hmem).1 rfl, fun hmem => (h _ hmem).2 rfl⟩
  · rintro ⟨hnewline, hreturn⟩ b hb
    constructor
    · rintro rfl
      exact hnewline hb
    · rintro rfl
      exact hreturn hb

/-- What follows the topic in a line: nothing, or a `space` and the payload. -/
def payloadPart (p : Bytes) : Bytes := if p.isEmpty then [] else space :: p

def topicPart (line : Bytes) : Bytes := (trimBreaks line).takeWhile (· ≠ space)

lemma takeWhile_payloadPart (p : Bytes) : (payloadPart p).takeWhile (· ≠ space) = [] := by
  cases p <;> rfl

lemma drop_dropWhile_payloadPart (p : Bytes) :
    ((payloadPart p).dropWhile (· ≠ space)).drop 1 = p := by
  cases p <;> rfl

/-- What `write` takes: a publishable topic and a payload without line breaks. -/
lemma write_eq_ok_iff {t : String} {p line : Bytes} :
    write t p = .ok line ↔ Topic.isPublishable t = true ∧ p.any isBreak = false ∧
      line = Utf8.encode t ++ payloadPart p ++ [newline] := by
  unfold write
  cases ht : Topic.isPublishable t with
  | false => simp
  | true =>
    cases hp : p.any isBreak with
    | true => simp
    | false =>
      simp only [Bool.not_true, Bool.false_eq_true, if_false, Except.ok.injEq, true_and]
      exact eq_comm

lemma newline_not_mem_of_any {bytes : Bytes} (h : bytes.any isBreak = false) :
    newline ∉ bytes :=
  (any_isBreak_eq_false_iff.1 h).1

/-- On a publishable topic `write` refuses a line break in the payload, and nothing else. -/
lemma write_of_isPublishable {t : String} (ht : Topic.isPublishable t = true) (p : Bytes) :
    write t p = if p.any isBreak then .error (.invalidPayload t "payload contains a line break")
      else .ok (Utf8.encode t ++ payloadPart p ++ [newline]) := by
  unfold write
  rw [ht]
  rfl

/-- The only newline of a line from `write` is at its end. -/
lemma exists_body_of_write {t : String} {p line : Bytes} (h : write t p = .ok line) :
    ∃ body, newline ∉ body ∧ line = body ++ [newline] := by
  obtain ⟨ht, hp, rfl⟩ := write_eq_ok_iff.1 h
  refine ⟨_, fun hmem => ?_, rfl⟩
  rcases List.mem_append.1 hmem with hmem | hmem
  · exact absurd (isPadding_eq_false_of_mem_encode ht hmem) (by decide)
  · cases p with
    | nil => exact absurd hmem List.not_mem_nil
    | cons b p =>
      rcases List.mem_cons.1 hmem with hspace | hmem
      · exact absurd hspace (by decide)
      · exact newline_not_mem_of_any hp hmem

/-! ## Reading -/

/-- A topic with its `payloadPart` does not end in a break. -/
lemma trimBreaks_written {t : String} {p : Bytes} (ht : Topic.isPublishable t = true)
    (hp : p.any isBreak = false) :
    trimBreaks (Utf8.encode t ++ payloadPart p) = Utf8.encode t ++ payloadPart p := by
  refine trimBreaks_eq_self fun b hb => ?_
  cases p with
  | nil =>
    have hmem : b ∈ Utf8.encode t := by
      rw [payloadPart, List.isEmpty_nil, if_pos rfl, List.append_nil] at hb
      exact List.mem_of_getLast? hb
    by_contra hbreak
    rw [Bool.not_eq_false] at hbreak
    exact absurd (isPadding_of_isBreak hbreak)
      (by rw [isPadding_eq_false_of_mem_encode ht hmem]; decide)
  | cons first p =>
    have hmem : b ∈ first :: p := by
      have hlast :
          (Utf8.encode t ++ payloadPart (first :: p)).getLast? = (first :: p).getLast? := by
        simp [payloadPart, List.getLast?_append, List.getLast?_cons]
      exact List.mem_of_getLast? (hlast ▸ hb)
    simpa using List.any_eq_false.1 hp b hmem

/-- A line of a publishable topic, with nothing behind it or a `space` and more, is taken apart at
the end of the topic. -/
lemma read_of_layout {line tail : Bytes} {t : String} (ht : Topic.isPublishable t = true)
    (hline : trimBreaks line = Utf8.encode t ++ tail) (htail : tail.takeWhile (· ≠ space) = []) :
    read line = .ok (some (t, (tail.dropWhile (· ≠ space)).drop 1)) := by
  have hbytes (b : UInt8) (hb : b ∈ Utf8.encode t) : isPadding b = false :=
    isPadding_eq_false_of_mem_encode ht hb
  have hnotSpace : ∀ b ∈ Utf8.encode t, decide (b ≠ space) = true := by
    intro b hb
    rw [decide_eq_true_iff]
    rintro rfl
    exact absurd (hbytes _ hb) (by decide)
  have hnotBlank : (Utf8.encode t ++ tail).all isPadding = false := by
    obtain ⟨first, hfirst⟩ : ∃ b, b ∈ Utf8.encode t := by
      refine List.exists_mem_of_ne_nil _ fun hnil => ?_
      exact (Topic.isPublishable_iff.1 ht).1 ((Utf8.encode_eq_nil_iff t).1 hnil)
    rw [List.all_eq_false]
    exact ⟨first, List.mem_append_left _ hfirst, by rw [hbytes first hfirst]; decide⟩
  have htopic : (Utf8.encode t ++ tail).takeWhile (· ≠ space) = Utf8.encode t := by
    rw [List.takeWhile_append_of_pos hnotSpace, htail, List.append_nil]
  have hpayload : (Utf8.encode t ++ tail).dropWhile (· ≠ space) = tail.dropWhile (· ≠ space) :=
    List.dropWhile_append_of_pos hnotSpace
  simp only [read, hline, hnotBlank, htopic, hpayload, readTopic, Utf8.decode?_encode, ht]
  rfl

/-- Each `read` gives back what `write` was given. -/
lemma read_of_write {t : String} {p line : Bytes} (h : write t p = .ok line) :
    read line = .ok (some (t, p)) := by
  obtain ⟨ht, hp, rfl⟩ := write_eq_ok_iff.1 h
  have hline := trimBreaks_append_newline (Utf8.encode t ++ payloadPart p)
  rw [trimBreaks_written ht hp] at hline
  rw [read_of_layout ht hline (takeWhile_payloadPart p), drop_dropWhile_payloadPart]

/-- The payload that `read` gives has no newline. -/
lemma newline_not_mem_of_read {line : Bytes} {t : String} {p : Bytes}
    (hframed : newline ∉ line.dropLast) (h : read line = .ok (some (t, p))) : newline ∉ p := by
  unfold read at h
  simp only at h
  split_ifs at h
  · cases h
  · split at h
    · cases h
      intro hmem
      have hline := (List.dropWhile_suffix _).subset (List.mem_of_mem_drop hmem)
      exact newline_not_mem_trimBreaks hframed hline
    · cases h

/-- A line holds no message when it is blank, or when its `topicPart` is no publishable topic. -/
lemma read_ne_some {line : Bytes}
    (h : line.all isPadding = true ∨
      ∀ t, Utf8.decode? (topicPart line) = some t → Topic.isPublishable t = false)
    (message : String × Bytes) : read line ≠ .ok (some message) := by
  intro hread
  unfold read at hread
  cases hblank : (trimBreaks line).all isPadding with
  | true => simp [hblank] at hread
  | false =>
    rcases h with hall | htopic
    · -- what is left of a blank line is blank
      have htrimmed : (trimBreaks line).all isPadding = true :=
        List.all_eq_true.2 fun b hb => List.all_eq_true.1 hall b (trimBreaks_subset line hb)
      rw [htrimmed] at hblank
      cases hblank
    · have hrefused : ∃ f, readTopic (topicPart line) = .error f := by
        unfold readTopic
        cases hdecode : Utf8.decode? (topicPart line) with
        | none => exact ⟨_, rfl⟩
        | some t => exact ⟨.invalidTopic t, by simp [htopic t hdecode]⟩
      obtain ⟨f, hf⟩ := hrefused
      rw [topicPart] at hf
      simp only [hblank, hf, Bool.false_eq_true, if_false] at hread
      cases hread

end Line

end VoiceTurn
