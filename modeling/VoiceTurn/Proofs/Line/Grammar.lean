import Mathlib.Data.List.TakeWhile
import VoiceTurn.Proofs.Line.Codec

/-!
# The grammar of lines

Which lines there are, said without the functions that write and read them: a line has a body and
any breaks behind it (`IsBodyOf`), and a body holds a message when it is a publishable topic, alone
or with a space and the payload behind it (`Holds`). Writing and reading are exact for this grammar
(`line_format_is_exact`): what is refused does not follow it, and what is read does.
-/

namespace VoiceTurn.Line

/-! ## Bodies -/

/-- A line consists of a `body` that does not end in a break, and of breaks behind it. -/
structure IsBodyOf (body line : Bytes) : Prop where
  breaks : ∃ breaks, (∀ b ∈ breaks, isBreak b = true) ∧ line = body ++ breaks
  last : ∀ b ∈ body.getLast?, isBreak b = false

/-- A body is a publishable topic, alone or with a space and a payload behind it. -/
def Holds (body : Bytes) (t : String) (p : Bytes) : Prop :=
  Topic.isPublishable t = true ∧
    (body = Utf8.encode t ∧ p = [] ∨ body = Utf8.encode t ++ space :: p)

def topicBytes (body : Bytes) : Bytes := body.takeWhile (· ≠ space)

/-- The bytes of a topic as `invalidTopic` shows them. -/
def shownTopic (b : Bytes) : String := (Utf8.decode? b).getD (Utf8.lossy b)

lemma trimBreaks_append_breaks (line : Bytes) {breaks : Bytes}
    (h : ∀ b ∈ breaks, isBreak b = true) : trimBreaks (line ++ breaks) = trimBreaks line := by
  have hreverse : ∀ b ∈ breaks.reverse, isBreak b = true :=
    fun b hb => h b (List.mem_reverse.1 hb)
  unfold trimBreaks
  rw [List.reverse_append, List.dropWhile_append_of_pos hreverse]

/-- Every line has a body, which is what `trimBreaks` leaves of it. -/
lemma isBodyOf_trimBreaks (line : Bytes) : IsBodyOf (trimBreaks line) line := by
  constructor
  · refine ⟨(line.reverse.takeWhile isBreak).reverse, ?_, ?_⟩
    · intro b hb
      exact List.mem_takeWhile_imp (List.mem_reverse.1 hb)
    · unfold trimBreaks
      rw [← List.reverse_append, List.takeWhile_append_dropWhile, List.reverse_reverse]
  · intro b hb
    unfold trimBreaks at hb
    rw [List.getLast?_reverse] at hb
    have hhead := List.head?_dropWhile_not isBreak line.reverse
    rw [Option.mem_def.1 hb] at hhead
    exact hhead

/-- There is no body but `trimBreaks`. -/
lemma IsBodyOf.trimBreaks_eq {body line : Bytes} (h : IsBodyOf body line) :
    trimBreaks line = body := by
  obtain ⟨breaks, hbreaks, rfl⟩ := h.breaks
  rw [trimBreaks_append_breaks body hbreaks]
  exact trimBreaks_eq_self h.last

/-! ## Reading -/

lemma read_append_breaks (line : Bytes) {breaks : Bytes} (h : ∀ b ∈ breaks, isBreak b = true) :
    read (line ++ breaks) = read line := by
  unfold read
  rw [trimBreaks_append_breaks line h]

/-- The three cases of `read`: a blank body, a topic that can be published, and everything else. -/
lemma read_eq (line : Bytes) :
    read line =
      if (trimBreaks line).all isPadding then .ok none
      else match readTopic (topicBytes (trimBreaks line)) with
        | .ok t => .ok (some (t, ((trimBreaks line).dropWhile (· ≠ space)).drop 1))
        | .error f => .error f := rfl

/-- Everything that `readTopic` can do: accept bytes that spell a publishable topic, and refuse all
others with `shownTopic`. -/
lemma readTopic_cases (b : Bytes) :
    (∃ t, Topic.isPublishable t = true ∧ b = Utf8.encode t ∧ readTopic b = .ok t) ∨
      ((∀ t, Topic.isPublishable t = true → b ≠ Utf8.encode t) ∧
        readTopic b = .error (.invalidTopic (shownTopic b))) := by
  unfold readTopic shownTopic
  cases hdecode : Utf8.decode? b with
  | none =>
    refine .inr ⟨?_, rfl⟩
    rintro t - rfl
    rw [Utf8.decode?_encode] at hdecode
    cases hdecode
  | some s =>
    have hb : b = Utf8.encode s := Utf8.decode?_eq_some_iff.1 hdecode
    by_cases hs : Topic.isPublishable s = true
    · exact .inl ⟨s, hs, hb, by simp [hs]⟩
    · refine .inr ⟨?_, by simp [hs]⟩
      rintro t ht rfl
      rw [Utf8.decode?_encode, Option.some.injEq] at hdecode
      exact hs (hdecode ▸ ht)

section
variable {body line : Bytes} (hbody : IsBodyOf body line)
include hbody

/-- The lines that hold no message are those with a blank body. -/
lemma read_eq_none_iff : read line = .ok none ↔ body.all isPadding = true := by
  rw [read_eq, hbody.trimBreaks_eq]
  constructor
  · intro h
    by_contra hblank
    rw [if_neg hblank] at h
    split at h <;> cases h
  · intro hblank
    rw [if_pos hblank]

/-- A message is read from a body exactly when the body `Holds` it. -/
lemma read_eq_some_iff {t : String} {p : Bytes} :
    read line = .ok (some (t, p)) ↔ Holds body t p := by
  constructor
  · intro h
    rw [read_eq, hbody.trimBreaks_eq] at h
    split_ifs at h with hblank
    · cases h
    · rcases readTopic_cases (topicBytes body) with ⟨s, hs, hspelled, hread⟩ | ⟨-, hrefused⟩
      · rw [hread] at h
        cases h
        refine ⟨hs, ?_⟩
        -- the body is the topic with what begins at the first space, if there is one
        have hsplit : body = Utf8.encode t ++ body.dropWhile (· ≠ space) := by
          rw [← hspelled]
          exact List.takeWhile_append_dropWhile.symm
        cases hrest : body.dropWhile (· ≠ space) with
        | nil =>
          rw [hrest, List.append_nil] at hsplit
          exact .inl ⟨hsplit, rfl⟩
        | cons b rest =>
          have hspace : b = space := by
            have hhead := List.head?_dropWhile_not (fun b : UInt8 => decide (b ≠ space)) body
            rw [hrest] at hhead
            simpa using hhead
          rw [hrest, hspace] at hsplit
          exact .inr hsplit
      · rw [hrefused] at h
        cases h
  · rintro ⟨ht, ⟨hlaid, rfl⟩ | hlaid⟩
    · have hline : trimBreaks line = Utf8.encode t ++ [] := by
        rw [hbody.trimBreaks_eq, hlaid, List.append_nil]
      exact read_of_layout ht hline rfl
    · have hline : trimBreaks line = Utf8.encode t ++ space :: p := by
        rw [hbody.trimBreaks_eq, hlaid]
      exact read_of_layout ht hline rfl

/-- A body that is not blank and holds no message is refused as `invalidTopic`. -/
lemma read_eq_invalidTopic (hblank : body.all isPadding = false)
    (hnothing : ∀ t p, ¬ Holds body t p) :
    read line = .error (.invalidTopic (shownTopic (topicBytes body))) := by
  rcases readTopic_cases (topicBytes body) with ⟨t, -, -, hread⟩ | ⟨-, hrefused⟩
  · -- then the topic could be read, and with it a message
    exfalso
    apply hnothing t ((body.dropWhile (· ≠ space)).drop 1)
    rw [← read_eq_some_iff hbody, read_eq, hbody.trimBreaks_eq, hblank, hread]
    rfl
  · rw [read_eq, hbody.trimBreaks_eq, hblank, hrefused]
    rfl

/-- What `read` gives is written as the body was, but for a space behind a topic without payload. -/
lemma write_of_read {t : String} {p out : Bytes} (hread : read line = .ok (some (t, p)))
    (hwrite : write t p = .ok out) :
    out = body ++ [newline] ∨ p = [] ∧ out = Utf8.encode t ++ [newline] ∧
      body = Utf8.encode t ++ [space] := by
  obtain ⟨-, -, rfl⟩ := write_eq_ok_iff.1 hwrite
  obtain ⟨-, ⟨hlaid, rfl⟩ | hlaid⟩ := (read_eq_some_iff hbody).1 hread
  · left
    rw [hlaid]
    simp [payloadPart]
  · cases p with
    | nil => exact .inr ⟨rfl, by simp [payloadPart], hlaid⟩
    | cons b p =>
      left
      rw [hlaid]
      rfl

end

/-! ## Writing -/

lemma isPublishable_iff_forall {t : String} : Topic.isPublishable t = true ↔
    t ≠ "" ∧ ∀ c ∈ t.toList, c ≠ '+' ∧ c ≠ '#' ∧ isBlank c = false := by
  rw [Topic.isPublishable_iff]
  have hempty : t.toList ≠ [] ↔ t ≠ "" := by
    rw [Ne, Ne, String.toList_eq_nil_iff]
  rw [hempty]
  simp [Topic.isWildcard, and_assoc]

/-- There is a line exactly for a publishable topic and a payload without breaks. -/
lemma exists_write_iff {t : String} {p : Bytes} :
    (∃ line, write t p = .ok line) ↔
      Topic.isPublishable t = true ∧ carriageReturn ∉ p ∧ newline ∉ p := by
  constructor
  · rintro ⟨line, h⟩
    obtain ⟨ht, hp, -⟩ := write_eq_ok_iff.1 h
    exact ⟨ht, (any_isBreak_eq_false_iff.1 hp).symm⟩
  · rintro ⟨ht, hp⟩
    exact ⟨_, write_eq_ok_iff.2 ⟨ht, any_isBreak_eq_false_iff.2 hp.symm, rfl⟩⟩

/-- Exactly the messages with a publishable topic and a payload without breaks have a line, and it
reads back. What `read` gives for a line depends on its body (`IsBodyOf`) alone: nothing for a blank
one, the message that it `Holds`, or a refusal of its topic. -/
theorem line_format_is_exact :
    (∀ t p, (∃ line, write t p = .ok line) ↔
      (t ≠ "" ∧ ∀ c ∈ t.toList, c ≠ '+' ∧ c ≠ '#' ∧ isBlank c = false) ∧
        carriageReturn ∉ p ∧ newline ∉ p) ∧
    (∀ t p line, write t p = .ok line →
      (∃ body, newline ∉ body ∧ line = body ++ [newline]) ∧ read line = .ok (some (t, p))) ∧
    (∀ line breaks, (∀ b ∈ breaks, isBreak b = true) → read (line ++ breaks) = read line) ∧
    (∀ line, ∃ body, IsBodyOf body line) ∧
    ∀ body line, IsBodyOf body line →
      (read line = .ok none ↔ body.all isPadding = true) ∧
      (∀ t p, read line = .ok (some (t, p)) ↔ Holds body t p) ∧
      (body.all isPadding = false → (∀ t p, ¬ Holds body t p) →
        read line = .error (.invalidTopic (shownTopic (topicBytes body)))) ∧
      ∀ t p out, read line = .ok (some (t, p)) → write t p = .ok out →
        out = body ++ [newline] ∨ p = [] ∧ out = Utf8.encode t ++ [newline] ∧
          body = Utf8.encode t ++ [space] := by
  refine ⟨?_, ?_, ?_, ?_, ?_⟩
  · intro t p
    rw [exists_write_iff, isPublishable_iff_forall]
  · intro t p line hwrite
    exact ⟨exists_body_of_write hwrite, read_of_write hwrite⟩
  · intro line breaks hbreaks
    exact read_append_breaks line hbreaks
  · intro line
    exact ⟨trimBreaks line, isBodyOf_trimBreaks line⟩
  · intro body line hbody
    exact ⟨read_eq_none_iff hbody, fun t p => read_eq_some_iff hbody,
      read_eq_invalidTopic hbody, fun t p out => write_of_read hbody⟩

end VoiceTurn.Line
