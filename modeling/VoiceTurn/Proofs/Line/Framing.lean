import Mathlib.Tactic.Lemma
import Mathlib.Tactic.SplitIfs
import VoiceTurn.Line.Framer

/-!
# Framing as cutting a stream into lines

The framer looks at one byte at a time; `segments` looks at the whole stream. That both agree
follows from one description of the reader in the middle of a line, `Framer.midLine`, which is
computed from the bytes of that line alone: every step leads from the description of the bytes read
so far to the one of the bytes with the next one. In which portions the bytes arrive does not
matter (`feed_append`).
-/

namespace VoiceTurn.Line

/-! ## Reading byte by byte -/

namespace Framer

section
variable (limit : Nat) (f : Framer)

lemma feedFrom_eq (frames : List Frame) (bytes : Bytes) :
    feedFrom limit frames f bytes =
      (frames.reverse ++ (feed limit f bytes).1, (feed limit f bytes).2) := by
  induction bytes generalizing frames f with
  | nil => simp [feed, feedFrom]
  | cons b bytes ih =>
    -- both sides read `b`, and differ in the frames that the rest is collected on
    unfold feed
    simp only [feedFrom]
    rcases step limit f b with ⟨_ | frame, next⟩
    · exact ih next frames
    · simp only
      rw [ih next (frame :: frames), ih next [frame]]
      simp

@[simp] lemma feed_nil : feed limit f [] = ([], f) := rfl

lemma feed_cons (b : UInt8) (bytes : Bytes) :
    feed limit f (b :: bytes) =
      ((step limit f b).1.toList ++ (feed limit (step limit f b).2 bytes).1,
        (feed limit (step limit f b).2 bytes).2) := by
  rw [feed, feedFrom]
  rcases step limit f b with ⟨_ | frame, next⟩
  · rfl
  · exact feedFrom_eq limit next [frame] bytes

/-- A `feed` in portions is a `feed` of the whole. -/
lemma feed_append (x y : Bytes) :
    feed limit f (x ++ y) =
      ((feed limit f x).1 ++ (feed limit (feed limit f x).2 y).1,
        (feed limit (feed limit f x).2 y).2) := by
  induction x generalizing f with
  | nil => rfl
  | cons b x ih => rw [List.cons_append, feed_cons, feed_cons, ih, List.append_assoc]

end

/-! ## In the middle of a line -/

/-- The reader after the given bytes of a line, newest first: it is `holding` them as long as they
fit. -/
def midLine (limit : Nat) (read : Bytes) : Framer :=
  if read.length ≤ limit then .holding read (limit + 1 - read.length) else .skipping read.length

variable {limit : Nat}

/-- With `limit + 1` below the size of a word, there is room for the newline. -/
lemma capacity_eq (hlimit : limit + 1 < UInt64.size) : capacity limit = limit + 1 :=
  Nat.mod_eq_of_lt hlimit

lemma midLine_nil (hlimit : limit + 1 < UInt64.size) : midLine limit [] = fresh limit := by
  have hempty : ([] : Bytes).length ≤ limit := Nat.zero_le limit
  rw [midLine, if_pos hempty, fresh, capacity_eq hlimit]
  rfl

lemma step_midLine_of_ne {b : UInt8} (hb : b ≠ newline) (read : Bytes) :
    step limit (midLine limit read) b = (none, midLine limit (b :: read)) := by
  unfold midLine
  rw [List.length_cons]
  by_cases hfits : read.length ≤ limit
  · rw [if_pos hfits]
    simp only [step, if_neg hb]
    by_cases hfull : read.length = limit
    · rw [if_pos (by omega), if_neg (by omega)]
    · have hroom : limit + 1 - read.length - 1 = limit + 1 - (read.length + 1) := by omega
      rw [if_neg (by omega), if_pos (by omega), hroom]
  · rw [if_neg hfits, if_neg (by omega)]
    simp only [step, if_neg hb]

/-- A newline completes the line, which `ofSegment` judges by its length. -/
lemma step_midLine_newline (read : Bytes) :
    step limit (midLine limit read) newline =
      (some (.ofSegment limit (newline :: read).reverse), fresh limit) := by
  have hlast : (newline :: read).reverse.getLast? = some newline := by simp
  have hcontent : (newline :: read).reverse.length - 1 = read.length := by simp
  unfold midLine
  simp only [Frame.ofSegment, hlast, if_true, hcontent]
  split_ifs <;> simp [step]

/-- The end of the stream judges the line that it cuts off in the same way. -/
lemma finish_midLine {read : Bytes} (hread : newline ∉ read) :
    (midLine limit read).finish =
      if read.isEmpty then none else some (.ofSegment limit read.reverse) := by
  cases read with
  | nil => simp [midLine, finish]
  | cons b read =>
    have hlast : (b :: read).reverse.getLast? ≠ some newline := by
      rw [List.getLast?_reverse, List.head?_cons]
      rintro h
      exact hread (Option.some.inj h ▸ List.mem_cons_self)
    simp only [Frame.ofSegment, if_neg hlast, List.length_reverse, midLine]
    split_ifs <;> simp_all [finish]

end Framer

/-! ## Whole streams -/

def isTerminated (segment : Bytes) : Bool := segment.getLast? = some newline

def wholeLines (stream : Bytes) : List Bytes := (segments stream).filter isTerminated

/-- The frames of a stream as far as it has been read. -/
def framesOf (limit : Nat) (stream : Bytes) : List Frame :=
  (Framer.feed limit (.fresh limit) stream).1

section
variable {limit : Nat}

/-- The frames that are completed are those of the whole lines, and `finish` adds a frame for what
the end has cut off. -/
lemma feed_midLine (hlimit : limit + 1 < UInt64.size) {read : Bytes} (hread : newline ∉ read)
    (bytes : Bytes) :
    (Framer.feed limit (.midLine limit read) bytes).1 =
      ((segmentsFrom read bytes).filter isTerminated).map (Frame.ofSegment limit) ∧
    (Framer.feed limit (.midLine limit read) bytes).1 ++
        (Framer.feed limit (.midLine limit read) bytes).2.finish.toList =
      (segmentsFrom read bytes).map (Frame.ofSegment limit) := by
  -- on the bytes to come; `read` is what has come of the present line, the last byte first
  induction bytes generalizing read with
  | nil =>
    rw [Framer.feed_nil, Framer.finish_midLine hread, segmentsFrom]
    cases read with
    | nil => exact ⟨rfl, rfl⟩
    | cons b read =>
      have hlast : isTerminated (b :: read).reverse = false := by
        simp only [isTerminated, List.getLast?_reverse, List.head?_cons, decide_eq_false_iff_not]
        rintro h
        exact hread (Option.some.inj h ▸ List.mem_cons_self)
      have hcut : [(b :: read).reverse].filter isTerminated = [] := by
        rw [List.filter_cons, hlast]
        rfl
      exact ⟨(congrArg (List.map (Frame.ofSegment limit)) hcut).symm, rfl⟩
  | cons b bytes ih =>
    by_cases hb : b = newline
    · subst hb
      have hempty : newline ∉ ([] : Bytes) := List.not_mem_nil
      have hrest := ih hempty
      rw [Framer.midLine_nil hlimit] at hrest
      have hterminated : isTerminated (newline :: read).reverse = true := by
        simp [isTerminated]
      rw [Framer.feed_cons, Framer.step_midLine_newline, segmentsFrom, if_pos rfl,
        List.filter_cons_of_pos hterminated, List.map_cons, List.map_cons, ← hrest.1, ← hrest.2]
      exact ⟨rfl, rfl⟩
    · have hcons : newline ∉ b :: read := by
        intro hmem
        rcases List.mem_cons.1 hmem with h | h
        · exact hb h.symm
        · exact hread h
      rw [Framer.feed_cons, Framer.step_midLine_of_ne hb, segmentsFrom, if_neg hb]
      exact ih hcons

/-- The `framesOf` a stream are those of its `wholeLines`. -/
lemma framesOf_eq (hlimit : limit + 1 < UInt64.size) (stream : Bytes) :
    framesOf limit stream = (wholeLines stream).map (Frame.ofSegment limit) := by
  have h := (feed_midLine hlimit List.not_mem_nil stream).1
  rwa [Framer.midLine_nil hlimit] at h

/-- With its end a stream gives the frames of all of its `segments`. -/
lemma framesOf_append_finish (hlimit : limit + 1 < UInt64.size) (stream : Bytes) :
    framesOf limit stream ++
        (Framer.feed limit (.fresh limit) stream).2.finish.toList =
      (segments stream).map (Frame.ofSegment limit) := by
  have h := (feed_midLine hlimit List.not_mem_nil stream).2
  rwa [Framer.midLine_nil hlimit] at h

end

/-! ## Streams that are put together from lines -/

lemma segmentsFrom_append_line {body : Bytes} (hbody : newline ∉ body) (read rest : Bytes) :
    segmentsFrom read (body ++ newline :: rest) =
      (read.reverse ++ body ++ [newline]) :: segments rest := by
  induction body generalizing read with
  | nil => simp [segmentsFrom, segments]
  | cons b body ih =>
    have hb : b ≠ newline := fun h => hbody (h ▸ List.mem_cons_self)
    have hrest : newline ∉ body := fun h => hbody (List.mem_cons_of_mem _ h)
    rw [List.cons_append, segmentsFrom, if_neg hb, ih hrest (b :: read)]
    simp

lemma segments_line_append {body : Bytes} (hbody : newline ∉ body) (rest : Bytes) :
    segments (body ++ newline :: rest) = (body ++ [newline]) :: segments rest :=
  segmentsFrom_append_line hbody [] rest

lemma ofSegment_line (limit : Nat) (body : Bytes) :
    Frame.ofSegment limit (body ++ [newline]) =
      if body.length ≤ limit then .line (body ++ [newline]) else .oversized (body.length + 1) := by
  simp [Frame.ofSegment]

end VoiceTurn.Line
