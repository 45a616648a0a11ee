import Mathlib.Data.List.Basic
import Mathlib.Tactic.Lemma
import Mathlib.Tactic.SplitIfs
import VoiceTurn.Line.Link
import VoiceTurn.Proofs.Line.Codec
import VoiceTurn.Proofs.Line.Framing

/-!
# Messages over a pair of links

A link that publishes writes the lines of the messages that it accepts (`Link.publishAll_eq`). A
link that reads delivers the messages of the whole stream, in whichever portions it has arrived
(`Link.readChunks_eq`), and passes over the lines that others have put in between (`Laced`). What
goes in at one end therefore comes out at the other, but for lines that are too long.
-/

namespace VoiceTurn.Line

open Bus (Delivery Failure Message Subscription Subscriptions)

/-- The line of a message, if `write` has one. -/
def lineOf? (m : Message) : Option Bytes := (write m.topic m.payload).toOption

/-- The `lineOf?` each message, one behind the other. -/
def written (ms : List Message) : Bytes := (ms.filterMap lineOf?).flatten

/-- Whether a message has a line of at most `limit` bytes before its newline. -/
def fits (limit : Nat) (m : Message) : Bool := (lineOf? m).any (·.length ≤ limit + 1)

lemma lineOf?_eq_some_iff {m : Message} {line : Bytes} :
    lineOf? m = some line ↔ write m.topic m.payload = .ok line := by
  unfold lineOf?
  cases write m.topic m.payload <;> simp [Except.toOption]

lemma flatten_filterMap_cons {α β : Type} (f : α → Option (List β)) (a : α) (as : List α) :
    ((a :: as).filterMap f).flatten = (f a).getD [] ++ (as.filterMap f).flatten := by
  cases h : f a with
  | none => rw [List.filterMap_cons_none h]; rfl
  | some line => rw [List.filterMap_cons_some h]; rfl

lemma written_cons (m : Message) (ms : List Message) :
    written (m :: ms) = (lineOf? m).getD [] ++ written ms := flatten_filterMap_cons _ m ms

namespace Link

variable {ρ : Type}

/-! ## The sending end -/

def publishAll (b : Link ρ) : List Message → List (Except Failure Unit) × Link ρ
  | [] => ([], b)
  | m :: ms =>
    let (result, b) := b.publish m
    let (results, b) := b.publishAll ms
    (result :: results, b)

/-- The output of a link `accepts` every line. -/
def IsSturdy (b : Link ρ) : Prop := b.brokenWrites = 0 ∧ b.brokenFlushes = 0

/-- A link that `IsSturdy` accepts what can be written as a line, and writes the line. -/
lemma publish_eq {b : Link ρ} (hb : b.IsSturdy) (m : Message) :
    b.publish m =
      ((write m.topic m.payload).map fun _ => (),
        { b with output := b.output ++ (lineOf? m).getD [] }) := by
  have hwriting : b.nextWriting = .accepts := by
    rw [nextWriting, hb.1, hb.2]
    rfl
  unfold publish lineOf?
  rw [hwriting]
  cases h : write m.topic m.payload with
  | error f => simp [Except.toOption, Except.map]
  | ok line => simp [countWriting, publishTo, h, Except.toOption, Except.map]

/-- What is accepted is `written` in order; what is refused leaves nothing behind. -/
lemma publishAll_eq {b : Link ρ} (hb : b.IsSturdy) (ms : List Message) :
    b.publishAll ms =
      (ms.map fun m => (write m.topic m.payload).map fun _ => (),
        { b with output := b.output ++ written ms }) := by
  induction ms generalizing b with
  | nil => simp [publishAll, written]
  | cons m ms ih =>
    have hsturdy : IsSturdy { b with output := b.output ++ (lineOf? m).getD [] } := hb
    have hrest := ih hsturdy
    simp only [publishAll, publish_eq hb]
    rw [hrest, written_cons, ← List.append_assoc]
    rfl

/-! ## The receiving end -/

/-- Lets portions `arrive`, and reads each of them. -/
def readChunks (b : Link ρ) : List Bytes → List (Delivery ρ) × Link ρ
  | [] => ([], b)
  | chunk :: chunks =>
    let (now, b) := (b.arrive chunk).readArrived
    let (later, b) := b.readChunks chunks
    (now ++ later, b)

/-- Starts the reader and reads a stream that arrives in portions, the last one with the end of the
stream behind it. -/
def readStream (b : Link ρ) (chunks : List Bytes) (last : Bytes) : List (Delivery ρ) × Link ρ :=
  let (before, b) := b.start.2.readChunks chunks
  let (after, b) := (b.arrive last).endInput.readArrived
  (before ++ after, b)

lemma deliveriesOf_append (b : Link ρ) (frames frames' : List Frame) :
    b.deliveriesOf (frames ++ frames') = b.deliveriesOf frames ++ b.deliveriesOf frames' := by
  simp [deliveriesOf]

section
variable {b : Link ρ} {f : Framer}

/-- A `readArrived` without an end of the input goes on from where the reader stands. -/
lemma readArrived_eq (hlimit : b.limit + 1 < UInt64.size) (hreader : b.reader = .reading f)
    (hending : b.intake.ending = none) :
    b.readArrived =
      (b.deliveriesOf (f.feed b.limit b.intake.arrived).1,
        { b with intake := {}, reader := .reading (f.feed b.limit b.intake.arrived).2 }) := by
  have hcapacity : Framer.capacity b.limit ≠ 0 := by
    rw [Framer.capacity_eq hlimit]
    exact Nat.succ_ne_zero _
  simp only [readArrived, hreader, if_neg hcapacity, hending]

def standing (b : Link ρ) (f : Framer) : Link ρ := { b with intake := {}, reader := .reading f }

lemma readChunks_eq (hlimit : b.limit + 1 < UInt64.size) (chunks : List Bytes) :
    (b.standing f).readChunks chunks =
      (b.deliveriesOf (f.feed b.limit chunks.flatten).1,
        b.standing (f.feed b.limit chunks.flatten).2) := by
  induction chunks generalizing f with
  | nil => rfl
  | cons chunk chunks ih =>
    have hread : ((b.standing f).arrive chunk).readArrived =
        (b.deliveriesOf (f.feed b.limit chunk).1, b.standing (f.feed b.limit chunk).2) :=
      readArrived_eq hlimit rfl rfl
    rw [readChunks, hread, List.flatten_cons, Framer.feed_append, deliveriesOf_append]
    simp only [ih]

/-- The end of the input completes the last line and closes the link. -/
lemma readArrived_endInput (hlimit : b.limit + 1 < UInt64.size) (last : Bytes) :
    (((b.standing f).arrive last).endInput.readArrived).1 =
        b.deliveriesOf ((f.feed b.limit last).1 ++ (f.feed b.limit last).2.finish.toList) ∧
      (((b.standing f).arrive last).endInput.readArrived).2.isClosed = true := by
  have hcapacity : Framer.capacity ((b.standing f).arrive last).endInput.limit ≠ 0 := by
    show Framer.capacity b.limit ≠ 0
    rw [Framer.capacity_eq hlimit]
    exact Nat.succ_ne_zero _
  have hreader : ((b.standing f).arrive last).endInput.reader = .reading f := rfl
  have hending : ((b.standing f).arrive last).endInput.intake.ending = some .complete := rfl
  simp only [readArrived, hreader, if_neg hcapacity, hending]
  exact ⟨rfl, rfl⟩

end

end Link

/-! ## Lines in between -/

/-- A line that holds no message, given without its newline. -/
inductive IsNoise (limit : Nat) (body : Bytes) : Prop where
  | tooLong (h : limit < body.length)
  | blank (h : body.all isPadding = true)
  | notText (h : Utf8.decode? (topicPart body) = none)
  | malformed (t : String) (h : Utf8.decode? (topicPart body) = some t)
      (ht : Topic.isPublishable t = false)

/-- A stream that consists of the given lines in order, with lines that are `IsNoise` before,
between and after them. -/
inductive Laced (limit : Nat) : List Bytes → Bytes → Prop where
  | nil : Laced limit [] []
  | line {lines : List Bytes} {stream : Bytes} (line : Bytes) (h : Laced limit lines stream) :
      Laced limit (line :: lines) (line ++ stream)
  | noise {lines : List Bytes} {stream body : Bytes} (hbody : IsNoise limit body)
      (hnewline : newline ∉ body) (h : Laced limit lines stream) :
      Laced limit lines (body ++ newline :: stream)

/-- The message in a segment of a stream, if the segment fits and holds one. -/
def messageIn? (limit : Nat) (segment : Bytes) : Option Message :=
  Link.messageOf? (.ofSegment limit segment)

section
variable {limit : Nat}

lemma messageIn?_noise {body : Bytes} (h : IsNoise limit body) :
    messageIn? limit (body ++ [newline]) = none := by
  rw [messageIn?, ofSegment_line]
  split_ifs with hfits
  · -- a line that fits is noise because of what can be read in it
    have hread : body.all isPadding = true ∨
        ∀ t, Utf8.decode? (topicPart body) = some t → Topic.isPublishable t = false := by
      cases h with
      | tooLong h => omega
      | blank h => exact .inl h
      | notText h => exact .inr fun t ht => by rw [h] at ht; cases ht
      | malformed t h ht => exact .inr fun t' ht' => by rw [h] at ht'; cases ht'; exact ht
    have hline : (body ++ [newline]).all isPadding = true ∨
        ∀ t, Utf8.decode? (topicPart (body ++ [newline])) = some t →
          Topic.isPublishable t = false := by
      rw [topicPart, trimBreaks_append_newline]
      refine hread.imp_left fun hall => ?_
      rw [List.all_append, hall]
      rfl
    have hnone := read_ne_some hline
    simp only [Link.messageOf?]
    split
    · exact absurd ‹_› (hnone _)
    · rfl
  · rfl

/-- The line of a message holds the message if it `fits`. -/
lemma messageIn?_of_lineOf? {m : Message} {line : Bytes} (h : lineOf? m = some line) :
    messageIn? limit line = if fits limit m then some { m with qos := .exactlyOnce } else none := by
  have hwrite := lineOf?_eq_some_iff.1 h
  obtain ⟨body, -, rfl⟩ := exists_body_of_write hwrite
  have hlength : (body ++ [newline]).length = body.length + 1 := by simp
  rw [messageIn?, fits, h, ofSegment_line]
  by_cases hfits : body.length ≤ limit
  · rw [if_pos hfits, if_pos (by simpa [hlength] using hfits)]
    simp only [Link.messageOf?, read_of_write hwrite]
  · rw [if_neg hfits, if_neg (by simpa [hlength] using hfits)]
    rfl

lemma filterMap_messageIn?_lines (ms : List Message) :
    (ms.filterMap lineOf?).filterMap (messageIn? limit) =
      (ms.filter (fits limit)).map fun m => { m with qos := .exactlyOnce } := by
  induction ms with
  | nil => rfl
  | cons m ms ih =>
    cases h : lineOf? m with
    | none =>
      have hfits : fits limit m = false := by rw [fits, h]; rfl
      rw [List.filterMap_cons_none h, List.filter_cons_of_neg (by simp [hfits]), ih]
    | some line =>
      rw [List.filterMap_cons_some h, List.filter_cons, List.filterMap_cons,
        messageIn?_of_lineOf? h, ih]
      cases fits limit m <;> rfl

/-- Lines that are `IsNoise` between those of some messages do not change what can be read. -/
lemma Laced.filterMap_segments {ms : List Message} {stream : Bytes}
    (h : Laced limit (ms.filterMap lineOf?) stream) :
    (segments stream).filterMap (messageIn? limit) =
      (ms.filter (fits limit)).map fun m => { m with qos := .exactlyOnce } := by
  rw [← filterMap_messageIn?_lines]
  have hlines : ∀ line ∈ ms.filterMap lineOf?,
      ∃ body, newline ∉ body ∧ line = body ++ [newline] := by
    intro line hline
    obtain ⟨m, -, hm⟩ := List.mem_filterMap.1 hline
    exact exists_body_of_write (lineOf?_eq_some_iff.1 hm)
  generalize ms.filterMap lineOf? = lines at h hlines
  induction h with
  | nil => rfl
  | line line h ih =>
    obtain ⟨body, hbody, rfl⟩ := hlines line List.mem_cons_self
    have hrest := ih fun line hline => hlines line (List.mem_cons_of_mem _ hline)
    rw [List.append_assoc, List.singleton_append, segments_line_append hbody, List.filterMap_cons,
      List.filterMap_cons, hrest]
  | noise hbody hnewline h ih =>
    rw [segments_line_append hnewline, List.filterMap_cons_none (messageIn?_noise hbody)]
    exact ih hlines

end

/-! ## From end to end -/

section
variable {ρ : Type} (t : Subscriptions ρ) (m : Message)

/-- Lines carry no guarantee, so a receiver gets the one that it has asked for. -/
lemma deliveries_exactlyOnce :
    t.deliveries { m with qos := .exactlyOnce } =
      (t.entries.filter fun s => Topic.isMatch s.filter m.topic).map fun s =>
        ⟨s.receiver, m.topic, m.payload, s.qos⟩ := by
  simp [Subscriptions.deliveries, Bus.Qos.weaker_exactlyOnce]

lemma messages_exactlyOnce [DecidableEq ρ] {s : Subscription ρ}
    (hs : t.entries.filter (·.receiver = s.receiver) = [s]) :
    ((t.deliveries { m with qos := .exactlyOnce }).filter (·.receiver = s.receiver)).map
        Delivery.message =
      if Topic.isMatch s.filter m.topic then [⟨m.topic, m.payload, s.qos⟩] else [] := by
  have hreceiver : ((t.entries.filter fun s' => Topic.isMatch s'.filter m.topic).filter
      (·.receiver = s.receiver)) = [s].filter fun s' => Topic.isMatch s'.filter m.topic := by
    rw [← hs, List.filter_comm]
  rw [deliveries_exactlyOnce, List.filter_map, List.map_map]
  show List.map _ ((t.entries.filter fun s' => Topic.isMatch s'.filter m.topic).filter
    (·.receiver = s.receiver)) = _
  rw [hreceiver, List.filter_cons]
  cases Topic.isMatch s.filter m.topic <;> rfl

lemma messages_of_receiver [DecidableEq ρ] {s : Subscription ρ}
    (hs : t.entries.filter (·.receiver = s.receiver) = [s]) (ms : List Message) :
    ((ms.flatMap fun m => t.deliveries { m with qos := .exactlyOnce }).filter
        (·.receiver = s.receiver)).map Delivery.message =
      (ms.filter fun m => Topic.isMatch s.filter m.topic).map
        fun m => ⟨m.topic, m.payload, s.qos⟩ := by
  induction ms with
  | nil => rfl
  | cons m ms ih =>
    rw [List.flatMap_cons, List.filter_append, List.map_append, messages_exactlyOnce t m hs, ih,
      List.filter_cons]
    cases Topic.isMatch s.filter m.topic <;> rfl

end

namespace Link

variable {ρ : Type}

section
variable {b : Link ρ}

lemma start_eq (hreader : b.reader = .unstarted) (hintake : b.intake = {}) :
    b.start.2 = b.standing (.fresh b.limit) := by
  rw [start, hreader, standing, ← hintake]

/-- What `readStream` delivers are the messages of the `segments`, and the link is closed once the
stream has ended. -/
lemma readStream_spec (hlimit : b.limit + 1 < UInt64.size) (hreader : b.reader = .unstarted)
    (hintake : b.intake = {}) (chunks : List Bytes) (last : Bytes) :
    (b.readStream chunks last).1 =
        ((segments (chunks.flatten ++ last)).filterMap (messageIn? b.limit)).flatMap
          b.subscriptions.deliveries ∧
      (b.start.2.readChunks chunks).2.isClosed = false ∧
      (b.readStream chunks last).2.isClosed = true := by
  have hframes := framesOf_append_finish hlimit (chunks.flatten ++ last)
  rw [framesOf, Framer.feed_append, List.append_assoc] at hframes
  rw [readStream, start_eq hreader hintake, readChunks_eq hlimit]
  refine ⟨?_, rfl, (readArrived_endInput hlimit last).2⟩
  calc
    _ = b.deliveriesOf ((segments (chunks.flatten ++ last)).map (Frame.ofSegment b.limit)) := by
      rw [← hframes, deliveriesOf_append, ← (readArrived_endInput hlimit last).1]
    _ = _ := by
      rw [deliveriesOf, List.filterMap_map]
      rfl

end

/-- What `publishAll` writes at one link, `readStream` delivers at another, in order and once to
every receiver that matches, also when the lines are `Laced` with others. -/
theorem published_is_delivered {σ ρ : Type} [DecidableEq ρ] {a : Link σ} {b : Link ρ}
    (hsturdy : a.IsSturdy) (hlimit : b.limit + 1 < UInt64.size) (hreader : b.reader = .unstarted)
    (hintake : b.intake = {}) (ms : List Message) {stream : Bytes} {chunks : List Bytes}
    {last : Bytes} (hlaced : Laced b.limit (ms.filterMap lineOf?) stream)
    (hchunks : chunks.flatten ++ last = stream) :
    (a.publishAll ms).1 = ms.map (fun m => (write m.topic m.payload).map fun _ => ()) ∧
    (a.publishAll ms).2.output = a.output ++ (ms.filterMap lineOf?).flatten ∧
    (b.readStream chunks last).1 = (ms.filter (fits b.limit)).flatMap (fun m =>
      (b.subscriptions.entries.filter fun s => Topic.isMatch s.filter m.topic).map fun s =>
        ⟨s.receiver, m.topic, m.payload, s.qos⟩) ∧
    (∀ s, b.subscriptions.entries.filter (·.receiver = s.receiver) = [s] →
      ((b.readStream chunks last).1.filter (·.receiver = s.receiver)).map Delivery.message =
        (ms.filter fun m => fits b.limit m && Topic.isMatch s.filter m.topic).map fun m =>
          ⟨m.topic, m.payload, s.qos⟩) ∧
    (b.start.2.readChunks chunks).2.isClosed = false ∧
    (b.readStream chunks last).2.isClosed = true := by
  obtain ⟨hdeliveries, hopen, hclosed⟩ := readStream_spec hlimit hreader hintake chunks last
  rw [hchunks, hlaced.filterMap_segments, List.flatMap_map] at hdeliveries
  have hpublish := publishAll_eq hsturdy ms
  refine ⟨by rw [hpublish], by rw [hpublish]; rfl, ?_, ?_, hopen, hclosed⟩
  · rw [hdeliveries]
    simp only [deliveries_exactlyOnce]
  · intro s hs
    rw [hdeliveries, messages_of_receiver b.subscriptions hs, List.filter_filter]
    simp only [Bool.and_comm]

/-- One of four messages cannot be written and one is too long; a blank line, a line without a
topic, one that is no text and one that is too long stand between and behind the others, and the
stream arrives in portions that end within lines. -/
theorem published_is_delivered_in_portions :
    let a : Link Unit := {}
    let b : Link Nat :=
      { limit := 6
        subscriptions := ⟨[⟨1, "a/#", .atMostOnce, 7⟩, ⟨2, "a", .exactlyOnce, 8⟩], 2⟩ }
    let ms : List Message :=
      [⟨"a", [0x78], .atLeastOnce⟩, ⟨"a", [0x0A], .atLeastOnce⟩,
        ⟨"a/b", [0x78, 0x79, 0x7A], .atLeastOnce⟩, ⟨"a/b", [], .atLeastOnce⟩]
    let chunks : List Bytes :=
      [[0x61, 0x20], [0x78, 0x0A, 0x20, 0x09, 0x0A, 0x61, 0x2F, 0x62],
        [0x20, 0x78, 0x79, 0x7A, 0x0A, 0x2B, 0x0A, 0xFF, 0x20]]
    let last : Bytes :=
      [0x78, 0x0A, 0x61, 0x2F, 0x62, 0x0A, 0x78, 0x78, 0x78, 0x78, 0x78, 0x78, 0x78, 0x0A]
    Laced b.limit (ms.filterMap lineOf?) (chunks.flatten ++ last) ∧
    (a.publishAll ms).2.output =
      [0x61, 0x20, 0x78, 0x0A, 0x61, 0x2F, 0x62, 0x20, 0x78, 0x79, 0x7A, 0x0A, 0x61, 0x2F, 0x62,
        0x0A] ∧
    (b.readStream chunks last).1.map (fun d => (d.receiver, d.message)) =
      [(7, ⟨"a", [0x78], .atMostOnce⟩), (8, ⟨"a", [0x78], .exactlyOnce⟩),
        (7, ⟨"a/b", [], .atMostOnce⟩)] ∧
    ((b.readStream chunks last).1.filter (·.receiver = 7)).map Delivery.message =
      [⟨"a", [0x78], .atMostOnce⟩, ⟨"a/b", [], .atMostOnce⟩] ∧
    (b.start.2.readChunks chunks).2.isClosed = false ∧
    (b.readStream chunks last).2.isClosed = true := by
  intro a b ms chunks last
  have hlaced : Laced b.limit (ms.filterMap lineOf?) (chunks.flatten ++ last) := by
    have hlines : ms.filterMap lineOf? =
        [[0x61, 0x20, 0x78, 0x0A], [0x61, 0x2F, 0x62, 0x20, 0x78, 0x79, 0x7A, 0x0A],
          [0x61, 0x2F, 0x62, 0x0A]] := by
      decide +kernel
    rw [hlines]
    have hlong : IsNoise b.limit [0x78, 0x78, 0x78, 0x78, 0x78, 0x78, 0x78] := .tooLong (by decide)
    have htext : IsNoise b.limit [0xFF, 0x20, 0x78] := .notText (by decide +kernel)
    have htopic : IsNoise b.limit [0x2B] := .malformed "+" (by decide +kernel) (by decide +kernel)
    have hblank : IsNoise b.limit [0x20, 0x09] := .blank (by decide)
    exact .line _ (.noise hblank (by decide) (.line _ (.noise htopic (by decide)
      (.noise htext (by decide) (.line _ (.noise hlong (by decide) .nil))))))
  have h := published_is_delivered (a := a) (b := b) ⟨rfl, rfl⟩ (by decide) rfl rfl ms hlaced rfl
  obtain ⟨-, houtput, hdeliveries, hreceiver, hopen, hclosed⟩ := h
  refine ⟨hlaced, houtput.trans (by decide +kernel), ?_, ?_, hopen, hclosed⟩
  · rw [hdeliveries]
    decide +kernel
  · rw [hreceiver ⟨1, "a/#", .atMostOnce, 7⟩ rfl]
    decide +kernel

end Link

end VoiceTurn.Line
