import Mathlib.Tactic.Lemma
import Mathlib.Tactic.SplitIfs
import VoiceTurn.Proofs.Line.Segments
import VoiceTurn.Proofs.Line.Transport

/-!
# Frames fetched one by one

A reader that is handed a stream in portions fetches a frame by one call: it moves bytes into a
buffer that has room for the longest line and its newline, and skips the rest of a line that does
not fit. `Fetch.step` looks at one portion, `Fetch.run` is the whole call, and `Fetch.all` repeats
calls until the end of the stream.

What a call will answer can be read off the stream at every moment (`Fetch.outlook`), and no step
changes it (`Fetch.outlook_step`). So the frames are those of the segments of the stream, in
whichever portions it comes, and they are the ones that a link reads byte by byte
(`frames_are_segments`).
-/

namespace VoiceTurn.Line

/-! ## Calls -/

/-- How many bytes of the stream a frame stands for. -/
def Frame.size : Frame → Nat
  | .line bytes => bytes.length
  | .oversized length => length

inductive Stage where
  /-- It moves bytes into its buffer. -/
  | filling (buffer : Bytes)
  /-- The line does not fit; its bytes so far are counted. -/
  | skipping (count : Nat)
  /-- It answers a frame, or that the stream has ended. -/
  | done (frame : Option Frame)

/-- A call for one frame, with the portions of the stream that have not been used up. -/
structure Fetch where
  stage : Stage
  supply : List Bytes

namespace Fetch

/-- Takes bytes from the first portion: at most `room` of them, and nothing behind a newline. -/
def draw (room : Nat) : List Bytes → Bytes × List Bytes
  | [] => ([], [])
  | portion :: rest =>
    let taken := firstLine (portion.take room)
    let left := portion.drop taken.length
    (taken, if left.isEmpty then rest else left :: rest)

/-- What becomes of a call when its buffer is full, or holds a whole line, or the stream has
ended. -/
def judge (limit : Nat) (buffer : Bytes) : Stage :=
  if buffer.isEmpty then .done none
  else if isTerminated buffer || buffer.length ≤ limit then .done (some (.line buffer))
  else .skipping buffer.length

/-- Looks at one portion. An empty portion would be the end of the stream. -/
def step (limit : Nat) (f : Fetch) : Fetch :=
  match f.stage with
  | .filling buffer =>
    let (taken, supply) := draw (Framer.capacity limit - buffer.length) f.supply
    if taken.isEmpty || isTerminated taken then ⟨judge limit (buffer ++ taken), supply⟩
    else ⟨.filling (buffer ++ taken), supply⟩
  | .skipping count =>
    let (taken, supply) := draw (f.supply.headD []).length f.supply
    if taken.isEmpty || isTerminated taken then
      ⟨.done (some (.oversized (count + taken.length))), supply⟩
    else ⟨.skipping (count + taken.length), supply⟩
  | .done _ => f

def load (f : Fetch) : Nat :=
  f.supply.flatten.length + match f.stage with
    | .filling _ => 2
    | .skipping _ => 1
    | .done _ => 0

/-! ## One portion -/

section
variable (room : Nat) (supply : List Bytes)

/-- What `draw` takes and what it leaves is the whole. -/
lemma draw_append : (draw room supply).1 ++ (draw room supply).2.flatten = supply.flatten := by
  cases supply with
  | nil => rfl
  | cons portion rest =>
    have hprefix : firstLine (portion.take room) <+: portion :=
      (isPrefix_firstLine _).trans <| List.take_prefix room portion
    have hportion := List.prefix_iff_eq_append.1 hprefix
    rw [List.flatten_cons, ← hportion, List.append_assoc, hportion]
    simp only [draw]
    split_ifs with hleft
    · rw [List.isEmpty_iff.1 hleft, List.nil_append]
    · rw [List.flatten_cons]

lemma length_draw_le : (draw room supply).1.length ≤ room := by
  cases supply with
  | nil => exact Nat.zero_le room
  | cons portion rest =>
    have hline := (isPrefix_firstLine (portion.take room)).length_le
    have htake := List.length_take_le room portion
    show (firstLine (portion.take room)).length ≤ room
    omega

lemma length_draw :
    (draw room supply).1.length + (draw room supply).2.flatten.length = supply.flatten.length := by
  rw [← List.length_append, draw_append]

variable {supply}

lemma ne_nil_of_mem_draw (hportions : ∀ p ∈ supply, p ≠ []) :
    ∀ p ∈ (draw room supply).2, p ≠ [] := by
  cases supply with
  | nil => exact List.forall_mem_nil _
  | cons portion rest =>
    obtain ⟨-, hrest⟩ := List.forall_mem_cons.1 hportions
    simp only [draw]
    split_ifs with hleft
    · exact hrest
    · exact List.forall_mem_cons.2 ⟨fun hnil => hleft (List.isEmpty_iff.2 hnil), hrest⟩

/-- Everything that `draw` can come to: the first line of the stream, nothing, when there is no room
or the stream has ended, or a part of the first line. -/
inductive Drawn (room : Nat) (stream : Bytes) : Bytes → Bytes → Prop where
  | line {taken rest : Bytes} (hends : isTerminated taken = true) (hline : firstLine stream = taken)
      (hrest : stream.drop taken.length = rest) : Drawn room stream taken rest
  | nothing (hended : 0 < room → stream = []) : Drawn room stream [] stream
  | part {taken rest : Bytes} (hne : taken ≠ []) (hunbroken : newline ∉ taken)
      (hline : firstLine stream = taken ++ firstLine rest)
      (hrest : stream.drop (taken ++ firstLine rest).length = rest.drop (firstLine rest).length) :
      Drawn room stream taken rest

lemma drawn_draw (hportions : ∀ p ∈ supply, p ≠ []) :
    Drawn room supply.flatten (draw room supply).1 (draw room supply).2.flatten := by
  have hwhole := draw_append room supply
  by_cases hmem : newline ∈ (draw room supply).1
  · cases supply with
    | nil => exact absurd hmem List.not_mem_nil
    | cons portion rest =>
      have htake : newline ∈ portion.take room := (isPrefix_firstLine _).subset hmem
      have hsplit : (portion :: rest).flatten =
          portion.take room ++ (portion.drop room ++ rest.flatten) := by
        rw [← List.append_assoc, List.take_append_drop, List.flatten_cons]
      apply Drawn.line
      · exact isTerminated_firstLine htake
      · rw [hsplit, firstLine_append_of_mem htake]
        rfl
      · rw [← hwhole, List.drop_left]
  · by_cases hnil : (draw room supply).1 = []
    · rw [hnil, List.nil_append] at hwhole
      rw [hnil, hwhole]
      apply Drawn.nothing
      intro hroom
      cases supply with
      | nil => rfl
      | cons portion rest =>
        -- a portion is not empty, and with room for a byte one would have been taken
        exfalso
        have hportion : portion ≠ [] := hportions portion List.mem_cons_self
        apply firstLine_ne_nil _ hnil
        intro htake
        rcases List.take_eq_nil_iff.1 htake with h | h
        · omega
        · exact hportion h
    · apply Drawn.part hnil hmem
      · rw [← hwhole, firstLine_append_of_not_mem hmem]
      · rw [← hwhole, List.length_append, ← List.drop_drop, List.drop_left]

end

/-! ## Whole calls -/

/-- A call that goes on has taken something. -/
lemma length_pos_of_goes_on {taken : Bytes}
    (h : ¬ (taken.isEmpty || isTerminated taken) = true) : 0 < taken.length := by
  apply List.length_pos_iff.2
  rintro rfl
  exact h rfl

/-- A call that is not `done` comes closer to its end. -/
lemma load_step_lt (limit : Nat) {f : Fetch} (h : ∀ frame, f.stage ≠ .done frame) :
    (f.step limit).load < f.load := by
  obtain ⟨stage, supply⟩ := f
  cases stage with
  | done frame => exact absurd rfl (h frame)
  | filling buffer =>
    have hwhole := length_draw (Framer.capacity limit - buffer.length) supply
    simp only [step]
    split_ifs with hends
    · -- the buffer is not filled any further
      unfold judge load
      split_ifs <;> simp only <;> omega
    · have htaken := length_pos_of_goes_on hends
      simp only [load]
      omega
  | skipping count =>
    have hwhole := length_draw (supply.headD []).length supply
    simp only [step]
    split_ifs with hends
    · simp only [load]
      omega
    · have htaken := length_pos_of_goes_on hends
      simp only [load]
      omega

/-- Repeated `step`: the frame that a call answers, if there is one, and what is left of the
stream. -/
def run (limit : Nat) : Fetch → Option Frame × List Bytes
  | ⟨.done frame, supply⟩ => (frame, supply)
  | ⟨.filling buffer, supply⟩ => run limit (step limit ⟨.filling buffer, supply⟩)
  | ⟨.skipping count, supply⟩ => run limit (step limit ⟨.skipping count, supply⟩)
termination_by f => f.load
decreasing_by all_goals exact load_step_lt limit nofun

def begin (supply : List Bytes) : Fetch := ⟨.filling [], supply⟩

/-- What every `step` keeps holds at the end of `run`. -/
lemma run_induction {limit : Nat} (P : Fetch → Prop) (hstep : ∀ f, P f → P (f.step limit))
    {f : Fetch} (h : P f) : P ⟨.done (f.run limit).1, (f.run limit).2⟩ := by
  fun_induction run limit f with
  | case1 frame supply => exact h
  | case2 buffer supply ih => exact ih (hstep _ h)
  | case3 count supply ih => exact ih (hstep _ h)

/-! ## Bytes that are accounted for -/

/-- How many bytes a call has taken from the stream. -/
def size : Stage → Nat
  | .filling buffer => buffer.length
  | .skipping count => count
  | .done (some frame) => frame.size
  | .done none => 0

/-- A call that is at a frame, or `skipping` one, has taken bytes. -/
def IsProductive : Stage → Prop
  | .filling _ | .done none => True
  | .skipping count => 0 < count
  | .done (some frame) => 0 < frame.size

lemma size_judge (limit : Nat) (buffer : Bytes) : size (judge limit buffer) = buffer.length := by
  unfold judge
  split_ifs with hempty
  · rw [List.isEmpty_iff.1 hempty]
    rfl
  · rfl
  · rfl

lemma isProductive_judge (limit : Nat) (buffer : Bytes) : IsProductive (judge limit buffer) := by
  unfold judge
  split_ifs with hempty
  · trivial
  · exact List.length_pos_iff.2 fun hnil => hempty (List.isEmpty_iff.2 hnil)
  · exact List.length_pos_iff.2 fun hnil => hempty (List.isEmpty_iff.2 hnil)

/-- A `step` takes bytes from the stream and counts them. -/
lemma size_step (limit : Nat) (f : Fetch) :
    size (f.step limit).stage + (f.step limit).supply.flatten.length =
      size f.stage + f.supply.flatten.length := by
  obtain ⟨stage, supply⟩ := f
  cases stage with
  | done frame => rfl
  | filling buffer =>
    have hwhole := length_draw (Framer.capacity limit - buffer.length) supply
    simp only [step]
    split_ifs with hends
    · simp only [size_judge, List.length_append]
      show _ = buffer.length + supply.flatten.length
      omega
    · simp only [size, List.length_append]
      omega
  | skipping count =>
    have hwhole := length_draw (supply.headD []).length supply
    simp only [step]
    split_ifs with hends
    · simp only [size, Frame.size]
      omega
    · simp only [size]
      omega

lemma isProductive_step (limit : Nat) (f : Fetch) (h : IsProductive f.stage) :
    IsProductive (f.step limit).stage := by
  obtain ⟨stage, supply⟩ := f
  cases stage with
  | done frame => exact h
  | filling buffer =>
    simp only [step]
    split_ifs
    · exact isProductive_judge limit _
    · trivial
  | skipping count =>
    have hcount : 0 < count := h
    simp only [step]
    split_ifs
    · show 0 < count + _
      omega
    · show 0 < count + _
      omega

/-- A call that answers a frame has taken `Frame.size` bytes, and at least one. -/
lemma run_begin_some {limit : Nat} {supply rest : List Bytes} {frame : Frame}
    (h : (begin supply).run limit = (some frame, rest)) :
    frame.size + rest.flatten.length = supply.flatten.length ∧ 0 < frame.size := by
  have hfirst : size (begin supply).stage + (begin supply).supply.flatten.length =
      supply.flatten.length := Nat.zero_add _
  have hsize := run_induction
    (fun f => size f.stage + f.supply.flatten.length = supply.flatten.length)
    (fun f hf => (size_step limit f).trans hf) hfirst
  have hbegin : IsProductive (begin supply).stage := trivial
  have hproductive := run_induction (fun f => IsProductive f.stage) (isProductive_step limit) hbegin
  rw [h] at hsize hproductive
  exact ⟨hsize, hproductive⟩

/-- The frames that `run` answers by one call after the other, until the stream has ended. -/
def all (limit : Nat) (supply : List Bytes) : List Frame :=
  match _h : (begin supply).run limit with
  | (none, _) => []
  | (some frame, rest) => frame :: all limit rest
termination_by supply.flatten.length
decreasing_by
  obtain ⟨hsize, hpos⟩ := run_begin_some _h
  omega

/-! ## What a call will answer -/

def held : Stage → Bytes
  | .filling buffer => buffer
  | .done (some (.line bytes)) => bytes
  | .skipping _ | .done _ => []

/-- What a call can rely on: portions are not empty, and the buffer has room for the longest line
and its newline, which nothing follows in it. -/
structure IsSound (limit : Nat) (f : Fetch) : Prop where
  portions : ∀ p ∈ f.supply, p ≠ []
  held : (held f.stage).length ≤ limit + 1
  unbroken : ∀ buffer, f.stage = .filling buffer → newline ∉ buffer

/-- The frame that a call will answer, and the bytes that it will leave of the stream. -/
def outlook (limit : Nat) (f : Fetch) : Option Frame × Bytes :=
  let line := firstLine f.supply.flatten
  let rest := f.supply.flatten.drop line.length
  match f.stage with
  | .filling buffer =>
    (if (buffer ++ line).isEmpty then none else some (.ofSegment limit (buffer ++ line)), rest)
  | .skipping count => (some (.oversized (count + line.length)), rest)
  | .done frame => (frame, f.supply.flatten)

section
variable {limit : Nat}

lemma held_judge_length_le {buffer : Bytes} (h : buffer.length ≤ limit + 1) :
    (held (judge limit buffer)).length ≤ limit + 1 := by
  unfold judge
  split_ifs
  · exact Nat.zero_le _
  · exact h
  · exact Nat.zero_le _

lemma judge_ne_filling (buffer buffer' : Bytes) : judge limit buffer ≠ .filling buffer' := by
  unfold judge
  split_ifs <;> nofun

lemma IsSound.step (hlimit : limit + 1 < UInt64.size) {f : Fetch} (h : f.IsSound limit) :
    (f.step limit).IsSound limit := by
  obtain ⟨stage, supply⟩ := f
  cases stage with
  | done frame => exact h
  | filling buffer =>
    have hroom := length_draw_le (limit + 1 - buffer.length) supply
    have hbuffer : buffer.length ≤ limit + 1 := h.held
    have hfits : (buffer ++ (draw (limit + 1 - buffer.length) supply).1).length ≤ limit + 1 := by
      rw [List.length_append]
      omega
    have hrest := ne_nil_of_mem_draw (limit + 1 - buffer.length) h.portions
    have hdrawn := drawn_draw (limit + 1 - buffer.length) h.portions
    simp only [Fetch.step, Framer.capacity_eq hlimit]
    split_ifs with hends
    · refine ⟨hrest, held_judge_length_le hfits, ?_⟩
      intro buffer' hfilling
      exact absurd hfilling (judge_ne_filling _ _)
    -- the buffer goes on filling only if neither the old part nor the new one has a newline
    · refine ⟨hrest, hfits, ?_⟩
      intro buffer' hfilling
      obtain rfl := Stage.filling.inj hfilling
      rw [Bool.or_eq_true, not_or, Bool.not_eq_true, Bool.not_eq_true] at hends
      intro hmem
      rcases List.mem_append.1 hmem with hmem | hmem
      · exact h.unbroken buffer rfl hmem
      · generalize draw (limit + 1 - buffer.length) supply = drawn at *
        obtain ⟨taken, rest⟩ := drawn
        generalize supply.flatten = stream at hdrawn
        generalize rest.flatten = left at hdrawn
        cases hdrawn with
        | line hterminated =>
          rw [hterminated] at hends
          cases hends.2
        | nothing => exact absurd hmem List.not_mem_nil
        | part hne hunbroken => exact hunbroken hmem
  | skipping count =>
    have hrest := ne_nil_of_mem_draw (supply.headD []).length h.portions
    simp only [Fetch.step]
    split_ifs
    · exact ⟨hrest, Nat.zero_le _, nofun⟩
    · exact ⟨hrest, Nat.zero_le _, nofun⟩

/-- A line that fits with its newline is a `Frame.line`. -/
lemma ofSegment_of_isTerminated {line : Bytes} (h : isTerminated line = true)
    (hfits : line.length ≤ limit + 1) : Frame.ofSegment limit line = .line line := by
  have hlast : line.getLast? = some newline := of_decide_eq_true h
  unfold Frame.ofSegment
  rw [if_pos hlast, if_pos]
  omega

lemma ofSegment_of_length_le {line : Bytes} (h : line.length ≤ limit) :
    Frame.ofSegment limit line = .line line := by
  unfold Frame.ofSegment
  rw [if_pos]
  split_ifs <;> omega

/-- A line that has filled the buffer before its newline is `oversized`. -/
lemma ofSegment_of_full {buffer line : Bytes} (hfull : buffer.length = limit + 1)
    (hbuffer : newline ∉ buffer) :
    Frame.ofSegment limit (buffer ++ line) = .oversized (buffer.length + line.length) := by
  have hcontent : limit < if (buffer ++ line).getLast? = some newline
      then (buffer ++ line).length - 1 else (buffer ++ line).length := by
    rw [List.length_append]
    split_ifs with hlast
    · -- the newline at the end is not one of the bytes in the buffer
      have hline : 0 < line.length := by
        apply List.length_pos_iff.2
        rintro rfl
        rw [List.append_nil] at hlast
        exact hbuffer (List.mem_of_getLast? hlast)
      omega
    · omega
  unfold Frame.ofSegment
  rw [if_neg (by omega), List.length_append]

lemma not_isEmpty_of_isTerminated {line : Bytes} (h : isTerminated line = true) :
    ¬ line.isEmpty = true := by
  intro hempty
  rw [List.isEmpty_iff.1 hempty] at h
  cases h

/-- A whole line in the buffer is the answer. -/
lemma judge_of_isTerminated {buffer : Bytes} (h : isTerminated buffer = true) :
    judge limit buffer = .done (some (.line buffer)) := by
  unfold judge
  rw [if_neg (not_isEmpty_of_isTerminated h), h]
  rfl

/-- A full buffer without a newline is given up, by `skipping`. -/
lemma judge_of_full {buffer : Bytes} (hfull : buffer.length = limit + 1)
    (hbuffer : newline ∉ buffer) : judge limit buffer = .skipping buffer.length := by
  have hempty : ¬ buffer.isEmpty = true := by
    intro hnil
    rw [List.isEmpty_iff.1 hnil] at hfull
    cases hfull
  have hlong : ¬ buffer.length ≤ limit := by omega
  unfold judge
  rw [if_neg hempty, isTerminated_of_not_mem hbuffer]
  simp [hlong]

/-- At the end of the stream the buffer holds the rest of it, if there is one. -/
lemma judge_of_length_le {buffer : Bytes} (h : buffer.length ≤ limit) :
    judge limit buffer =
      .done (if buffer.isEmpty then none else some (.ofSegment limit buffer)) := by
  unfold judge
  rw [ofSegment_of_length_le h]
  by_cases hempty : buffer.isEmpty = true
  · rw [if_pos hempty, if_pos hempty]
  · rw [if_neg hempty, if_neg hempty]
    simp [h]

/-- A call that is `filling` its buffer goes on towards the same answer. -/
lemma outlook_step_filling (hlimit : limit + 1 < UInt64.size) {buffer : Bytes}
    {supply : List Bytes} (h : IsSound limit ⟨.filling buffer, supply⟩) :
    (Fetch.step limit ⟨.filling buffer, supply⟩).outlook limit =
      outlook limit ⟨.filling buffer, supply⟩ := by
  have hbuffer : buffer.length ≤ limit + 1 := h.held
  have hunbroken : newline ∉ buffer := h.unbroken buffer rfl
  have hroom := length_draw_le (limit + 1 - buffer.length) supply
  have hdrawn := drawn_draw (limit + 1 - buffer.length) h.portions
  simp only [Fetch.step, Framer.capacity_eq hlimit]
  generalize draw (limit + 1 - buffer.length) supply = drawn at *
  obtain ⟨taken, rest⟩ := drawn
  generalize hstream : supply.flatten = stream at hdrawn
  generalize hleft : rest.flatten = left at hdrawn
  cases hdrawn with
  | line hends hline hrest =>
    have hwholeLine : isTerminated (buffer ++ taken) = true := isTerminated_append hends
    have hfits : (buffer ++ taken).length ≤ limit + 1 := by
      rw [List.length_append]
      simp only at hroom
      omega
    rw [if_pos (by simp [hends]), judge_of_isTerminated hwholeLine]
    simp only [outlook, hstream, hleft, hline, hrest,
      if_neg (not_isEmpty_of_isTerminated hwholeLine), ofSegment_of_isTerminated hwholeLine hfits]
  | nothing hended =>
    rw [if_pos (by rfl), List.append_nil]
    by_cases hfull : buffer.length = limit + 1
    · -- the buffer is full, and what is left of the line is skipped
      have hempty : ¬ (buffer ++ firstLine stream).isEmpty = true := by
        intro hnil
        rw [(List.append_eq_nil_iff.1 (List.isEmpty_iff.1 hnil)).1] at hfull
        cases hfull
      rw [judge_of_full hfull hunbroken]
      simp only [outlook, hstream, hleft, if_neg hempty, ofSegment_of_full hfull hunbroken]
    · have hnothing : stream = [] := hended (by omega)
      rw [judge_of_length_le (by omega)]
      simp only [outlook, hstream, hleft, hnothing, firstLine, List.append_nil]
      rfl
  | part hne hpart hline hrest =>
    have hgoesOn : ¬ (taken.isEmpty || isTerminated taken) = true := by
      simp [hne, isTerminated_of_not_mem hpart]
    rw [if_neg hgoesOn]
    simp only [outlook, hstream, hleft, hline, hrest, List.append_assoc]

/-- A call that is `skipping` the rest of a line goes on towards the same answer. -/
lemma outlook_step_skipping {count : Nat} {supply : List Bytes} (hportions : ∀ p ∈ supply, p ≠ []) :
    (Fetch.step limit ⟨.skipping count, supply⟩).outlook limit =
      outlook limit ⟨.skipping count, supply⟩ := by
  have hdrawn := drawn_draw (supply.headD []).length hportions
  have hroom : supply.flatten ≠ [] → 0 < (supply.headD []).length := by
    cases supply with
    | nil => exact fun h => absurd rfl h
    | cons portion rest => exact fun _ => List.length_pos_iff.2 (hportions _ List.mem_cons_self)
  simp only [Fetch.step]
  generalize draw (supply.headD []).length supply = drawn at *
  obtain ⟨taken, rest⟩ := drawn
  generalize hstream : supply.flatten = stream at hdrawn hroom
  generalize hleft : rest.flatten = left at hdrawn
  cases hdrawn with
  | line hends hline hrest =>
    rw [if_pos (by simp [hends])]
    simp only [outlook, hstream, hleft, hline, hrest]
  | nothing hended =>
    have hnothing : stream = [] := by
      by_contra hne
      exact hne (hended (hroom hne))
    rw [if_pos (by rfl)]
    simp only [outlook, hstream, hleft, hnothing, firstLine, List.length_nil, List.drop_nil]
  | part hne hpart hline hrest =>
    have hgoesOn : ¬ (taken.isEmpty || isTerminated taken) = true := by
      simp [hne, isTerminated_of_not_mem hpart]
    rw [List.length_append] at hrest
    rw [if_neg hgoesOn]
    simp only [outlook, hstream, hleft, hline, hrest, List.length_append, Nat.add_assoc]

/-- The `outlook` of a call is the same after every `step`. -/
lemma outlook_step (hlimit : limit + 1 < UInt64.size) {f : Fetch} (h : f.IsSound limit) :
    (f.step limit).outlook limit = f.outlook limit := by
  obtain ⟨stage, supply⟩ := f
  cases stage with
  | done frame => rfl
  | filling buffer => exact outlook_step_filling hlimit h
  | skipping count => exact outlook_step_skipping h.portions

/-- Each `run` comes to the `outlook` of its call, and leaves portions that are not empty. -/
lemma run_spec (hlimit : limit + 1 < UInt64.size) {f : Fetch} (h : f.IsSound limit) :
    (f.run limit).1 = (f.outlook limit).1 ∧ (f.run limit).2.flatten = (f.outlook limit).2 ∧
      ∀ p ∈ (f.run limit).2, p ≠ [] := by
  have hend := run_induction (fun g => g.IsSound limit ∧ g.outlook limit = f.outlook limit)
    (fun g hg => ⟨hg.1.step hlimit, (outlook_step hlimit hg.1).trans hg.2⟩) ⟨h, rfl⟩
  obtain ⟨hsound, houtlook⟩ := hend
  exact ⟨congrArg Prod.fst houtlook, congrArg Prod.snd houtlook, hsound.portions⟩

end

lemma isSound_begin (limit : Nat) {supply : List Bytes} (hportions : ∀ p ∈ supply, p ≠ []) :
    (begin supply).IsSound limit where
  portions := hportions
  held := Nat.zero_le _
  unbroken := by
    intro buffer hbuffer
    obtain rfl := Stage.filling.inj hbuffer
    exact List.not_mem_nil

/-- The `outlook` at the beginning is the frame of the first line, if there is one. -/
lemma outlook_begin_of_ne_nil (limit : Nat) {supply : List Bytes} (hstream : supply.flatten ≠ []) :
    ((begin supply).outlook limit).1 = some (.ofSegment limit (firstLine supply.flatten)) := by
  have hline : ¬ (firstLine supply.flatten).isEmpty = true := by
    rw [List.isEmpty_iff]
    exact firstLine_ne_nil hstream
  exact if_neg hline

lemma outlook_begin_of_eq_nil (limit : Nat) {supply : List Bytes} (hstream : supply.flatten = []) :
    (begin supply).outlook limit = (none, []) := by
  simp only [outlook, begin, hstream, firstLine]
  rfl

/-! ## One call after the other -/

/-- What calls for one frame after the other go through, until one of them finds no more. -/
inductive Passes (limit : Nat) (supply : List Bytes) : Fetch → Prop
  | first : Passes limit supply (begin supply)
  | step {f : Fetch} (h : Passes limit supply f) : Passes limit supply (f.step limit)
  | again {frame : Frame} {rest : List Bytes}
      (h : Passes limit supply ⟨.done (some frame), rest⟩) : Passes limit supply (begin rest)

section
variable {limit : Nat} {supply : List Bytes}

lemma Passes.isSound (hlimit : limit + 1 < UInt64.size) (hportions : ∀ p ∈ supply, p ≠ [])
    {f : Fetch} (h : Passes limit supply f) : f.IsSound limit := by
  induction h with
  | first => exact isSound_begin limit hportions
  | step h ih => exact ih.step hlimit
  | again h ih => exact isSound_begin limit ih.portions

/-- The first call answers the frame of `firstLine`, and the others see what follows it. -/
lemma all_eq_cons (hlimit : limit + 1 < UInt64.size) (hportions : ∀ p ∈ supply, p ≠ [])
    (hstream : supply.flatten ≠ []) :
    ∃ rest : List Bytes, (∀ p ∈ rest, p ≠ []) ∧
      rest.flatten = supply.flatten.drop (firstLine supply.flatten).length ∧
      all limit supply = .ofSegment limit (firstLine supply.flatten) :: all limit rest := by
  obtain ⟨hframe, hrest, hleft⟩ := run_spec hlimit (isSound_begin limit hportions)
  have hsome := hframe.trans (outlook_begin_of_ne_nil limit hstream)
  refine ⟨((begin supply).run limit).2, hleft, hrest, ?_⟩
  rw [all]
  split
  · rename_i hrun
    rw [hrun] at hsome
    cases hsome
  · rename_i frame rest hrun
    rw [hrun] at hsome ⊢
    rw [Option.some.inj hsome]

lemma all_of_run_eq_none (hnone : ((begin supply).run limit).1 = none) : all limit supply = [] := by
  rw [all]
  split
  · rfl
  · rename_i hrun
    rw [hrun] at hnone
    cases hnone

lemma all_eq_nil (hlimit : limit + 1 < UInt64.size) (hportions : ∀ p ∈ supply, p ≠ [])
    (hstream : supply.flatten = []) : all limit supply = [] := by
  obtain ⟨hframe, -, -⟩ := run_spec hlimit (isSound_begin limit hportions)
  apply all_of_run_eq_none
  rw [hframe, outlook_begin_of_eq_nil limit hstream]

/-- One call after the other answers the frames of all `segments`. -/
lemma all_eq (hlimit : limit + 1 < UInt64.size) (hportions : ∀ p ∈ supply, p ≠ []) :
    all limit supply = (segments supply.flatten).map (Frame.ofSegment limit) := by
  generalize hflatten : supply.flatten = stream
  revert supply
  apply stream_induction (P := fun stream => ∀ {supply : List Bytes}, (∀ p ∈ supply, p ≠ []) →
    supply.flatten = stream → all limit supply = (segments stream).map (Frame.ofSegment limit))
  · intro supply hportions hflatten
    exact all_eq_nil hlimit hportions hflatten
  · intro stream hstream ih supply hportions hflatten
    subst hflatten
    obtain ⟨rest, hrest, hdrop, hall⟩ := all_eq_cons hlimit hportions hstream
    rw [hall, ih hrest hdrop, segments_eq_cons hstream, List.map_cons]

end

end Fetch

/-! ## The reader that runs -/

namespace Framer

def held : Framer → Bytes
  | .holding held _ => held
  | .skipping _ => []

/-- A reader has `held` no more than there is room for, and can always take the next byte. -/
def IsWithin (limit : Nat) : Framer → Prop
  | .holding held room => held.length + room = limit + 1 ∧ 0 < room
  | .skipping _ => True

section
variable {limit : Nat}

lemma isWithin_fresh (hlimit : limit + 1 < UInt64.size) : (fresh limit).IsWithin limit := by
  rw [fresh, capacity_eq hlimit]
  exact ⟨Nat.zero_add _, Nat.succ_pos limit⟩

lemma IsWithin.step (hlimit : limit + 1 < UInt64.size) {f : Framer} (h : f.IsWithin limit)
    (b : UInt8) : (f.step limit b).2.IsWithin limit := by
  cases f with
  | holding held room =>
    obtain ⟨hroom, hpos⟩ := h
    simp only [Framer.step]
    split_ifs
    · exact isWithin_fresh hlimit
    · trivial
    · refine ⟨?_, ?_⟩
      · rw [List.length_cons]
        omega
      · omega
  | skipping n =>
    simp only [Framer.step]
    split_ifs
    · exact isWithin_fresh hlimit
    · trivial

lemma IsWithin.feed (hlimit : limit + 1 < UInt64.size) {f : Framer} (h : f.IsWithin limit)
    (bytes : Bytes) : (f.feed limit bytes).2.IsWithin limit := by
  induction bytes generalizing f with
  | nil => exact h
  | cons b bytes ih =>
    rw [feed_cons]
    exact ih (h.step hlimit b)

lemma IsWithin.length_held_le {f : Framer} (h : f.IsWithin limit) : f.held.length ≤ limit := by
  cases f with
  | holding held room =>
    obtain ⟨hroom, hpos⟩ := h
    show held.length ≤ limit
    omega
  | skipping n => exact Nat.zero_le limit

end

end Framer

/-- Calls for one frame after the other (`Fetch.all`) answer the `segments` of the stream, each
judged by its length (`Frame.ofSegment`), in whichever portions it is handed over, and hold at most
`limit + 1` bytes. The `Framer` of a link, which looks at one byte at a time, finds the same
frames. -/
theorem frames_are_segments {limit : Nat} (hlimit : limit + 1 < UInt64.size)
    {portions : List Bytes} (hportions : ∀ p ∈ portions, p ≠ []) :
    Fetch.all limit portions = (segments portions.flatten).map (Frame.ofSegment limit) ∧
    IsCut portions.flatten (segments portions.flatten) ∧
    (∀ f, Fetch.Passes limit portions f → (Fetch.held f.stage).length ≤ limit + 1) ∧
    (∀ supply frame rest, (Fetch.begin supply).run limit = (some frame, rest) →
      frame.size + rest.flatten.length = supply.flatten.length ∧ 0 < frame.size) ∧
    (∀ portions' : List Bytes, (∀ p ∈ portions', p ≠ []) → portions'.flatten = portions.flatten →
      Fetch.all limit portions' = Fetch.all limit portions) ∧
    framesOf limit portions.flatten ++
        (Framer.feed limit (.fresh limit) portions.flatten).2.finish.toList =
      Fetch.all limit portions ∧
    (∀ read, (Framer.feed limit (.fresh limit) read).2.held.length ≤ limit) ∧
    ∀ {ρ : Type} (b : Link ρ), b.limit = limit → b.reader = .unstarted → b.intake = {} →
      (b.readStream portions []).1 = b.deliveriesOf (Fetch.all limit portions) := by
  have hall := Fetch.all_eq hlimit hportions
  refine ⟨hall, isCut_segments _, ?_, ?_, ?_, ?_, ?_, ?_⟩
  · intro f hf
    exact (hf.isSound hlimit hportions).held
  · intro supply frame rest hrun
    exact Fetch.run_begin_some hrun
  · intro portions' hportions' hflatten
    rw [hall, Fetch.all_eq hlimit hportions', hflatten]
  · rw [hall]
    exact framesOf_append_finish hlimit portions.flatten
  · intro read
    exact ((Framer.isWithin_fresh hlimit).feed hlimit read).length_held_le
  · intro ρ b hb hreader hintake
    subst hb
    rw [(Link.readStream_spec hlimit hreader hintake portions []).1, List.append_nil, hall,
      Link.deliveriesOf, List.filterMap_map]
    rfl

/-- With at most four bytes before a newline, the second of three lines is too long, and the last
one has been cut off. -/
theorem frames_are_segments_in_portions :
    let portions : List Bytes :=
      [[0x61], [0x62, 0x0A, 0x63, 0x64], [0x65, 0x66, 0x67], [0x68, 0x0A, 0x69, 0x6A]]
    Fetch.all 4 portions = [.line [0x61, 0x62, 0x0A], .oversized 7, .line [0x69, 0x6A]] ∧
      ∃ b : Link Nat, (b.readStream portions []).1 = b.deliveriesOf (Fetch.all 4 portions) := by
  intro portions
  have hportions : ∀ p ∈ portions, p ≠ [] := by decide
  have hlimit : 4 + 1 < UInt64.size := by decide
  obtain ⟨hall, -, -, -, -, -, -, hlink⟩ := frames_are_segments hlimit hportions
  exact ⟨hall.trans (by decide), { limit := 4 }, hlink _ rfl rfl rfl⟩

end VoiceTurn.Line
