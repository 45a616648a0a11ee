import Mathlib.Data.List.Forall2
import VoiceTurn.Proofs.Conductor.EndOfInput
import VoiceTurn.Proofs.Line.Fetching

/-!
# The limit on lines

The longest line that is read comes from the settings, as a word, and the reader makes room for one
byte more, the newline. Only for the greatest word this sum is no word (`capacity_eq_iff`). With
every other limit the reader finds the end of its input when there is nothing left of it, and takes
every line that fits for a line. With the greatest one there is room for nothing, and what the
reader finds before the first byte is the end.

This is shown of the calls for one frame after the other (`Fetch.Passes.eq_nil`, `forall₂_all`), and
of a host, whatever comes to its link (`Host.GoesOn.isThorough`).
-/

namespace VoiceTurn

open Bus (Carrier)
open Line (Link)

namespace Line

/-- The greatest limit that settings can hold. -/
def greatestLimit : UInt64 := 18446744073709551615

/-- How many bytes of a line come before its `newline`. -/
def lineLength (line : Bytes) : Nat := (line.takeWhile (· ≠ newline)).length

section
variable {word : UInt64}

lemma lt_size_iff : word.toNat + 1 < UInt64.size ↔ word ≠ greatestLimit := by
  have hword : word.toNat < UInt64.size := word.toNat_lt
  have hgreatest : greatestLimit.toNat + 1 = UInt64.size := rfl
  rw [Ne, ← UInt64.toNat_inj]
  omega

lemma capacity_greatestLimit : Framer.capacity greatestLimit.toNat = 0 := rfl

/-- The `Framer.capacity` leaves room for the newline unless the limit is the greatest one. -/
lemma capacity_eq_iff : Framer.capacity word.toNat = word.toNat + 1 ↔ word ≠ greatestLimit := by
  constructor
  · rintro hroom rfl
    cases hroom
  · exact fun hword => Framer.capacity_eq (lt_size_iff.2 hword)

end

/-! ## Calls -/

namespace Fetch

section
variable {limit : Nat} {supply : List Bytes}

lemma outlook_begin_eq_nil (hnone : ((begin supply).outlook limit).1 = none) :
    ((begin supply).outlook limit).2 = [] := by
  by_cases hstream : supply.flatten = []
  · rw [outlook_begin_of_eq_nil limit hstream]
  · rw [outlook_begin_of_ne_nil limit hstream] at hnone
    cases hnone

lemma Passes.outlook_eq_nil (hlimit : limit + 1 < UInt64.size) (hportions : ∀ p ∈ supply, p ≠ [])
    {f : Fetch} (h : Passes limit supply f) (hnone : (f.outlook limit).1 = none) :
    (f.outlook limit).2 = [] := by
  -- what is left at the end of a call is foreseen from its start, and no step changes it
  induction h with
  | first => exact outlook_begin_eq_nil hnone
  | step h ih =>
    rw [outlook_step hlimit (h.isSound hlimit hportions)] at hnone ⊢
    exact ih hnone
  | again => exact outlook_begin_eq_nil hnone

/-- A call that answers `done none` has nothing left of the stream. -/
lemma Passes.eq_nil (hlimit : limit + 1 < UInt64.size) (hportions : ∀ p ∈ supply, p ≠ [])
    {rest : List Bytes} (h : Passes limit supply ⟨.done none, rest⟩) : rest = [] := by
  have hnothing : rest.flatten = [] := h.outlook_eq_nil hlimit hportions rfl
  have hrest := (h.isSound hlimit hportions).portions
  rw [List.flatten_eq_nil_iff] at hnothing
  exact List.eq_nil_iff_forall_not_mem.2 fun p hp => hrest p hp (hnothing p hp)

lemma draw_zero (hportions : ∀ p ∈ supply, p ≠ []) : draw 0 supply = ([], supply) := by
  cases supply with
  | nil => rfl
  | cons portion rest =>
    have hportion : portion ≠ [] := hportions portion List.mem_cons_self
    simp [draw, firstLine, hportion]

/-- A call with `capacity` zero answers at once that the stream has ended. -/
lemma step_begin_of_no_room (hroom : Framer.capacity limit = 0) (hportions : ∀ p ∈ supply, p ≠ []) :
    (begin supply).step limit = ⟨.done none, supply⟩ := by
  simp only [step, begin, hroom, List.length_nil, Nat.sub_zero, draw_zero hportions]
  rfl

lemma run_begin_of_no_room (hroom : Framer.capacity limit = 0) (hportions : ∀ p ∈ supply, p ≠ []) :
    (begin supply).run limit = (none, supply) := by
  have hstep := step_begin_of_no_room hroom hportions
  rw [begin] at hstep ⊢
  rw [run, hstep, run]

lemma all_of_no_room (hroom : Framer.capacity limit = 0) (hportions : ∀ p ∈ supply, p ≠ []) :
    all limit supply = [] :=
  all_of_run_eq_none (congrArg Prod.fst (run_begin_of_no_room hroom hportions))

end

end Fetch

/-! ## Lines that fit -/

section
variable {limit : Nat}

lemma lineLength_eq {line : Bytes} (hline : newline ∉ line.dropLast) :
    lineLength line = if line.getLast? = some newline then line.length - 1 else line.length := by
  rcases List.eq_nil_or_concat line with rfl | ⟨body, b, rfl⟩
  · rfl
  · rw [List.concat_eq_append] at hline ⊢
    rw [List.dropLast_concat] at hline
    have hbody : ∀ c ∈ body, decide (c ≠ newline) = true :=
      fun c hc => decide_eq_true fun hnewline => hline (hnewline ▸ hc)
    rw [lineLength, List.takeWhile_append_of_pos hbody, List.getLast?_concat]
    by_cases hb : b = newline
    · simp [hb]
    · simp [hb]

lemma ofSegment_eq_line_iff {line : Bytes} (hline : newline ∉ line.dropLast) :
    Frame.ofSegment limit line = .line line ↔ lineLength line ≤ limit := by
  rw [lineLength_eq hline]
  unfold Frame.ofSegment
  simp only
  split_ifs <;> simp [*]

lemma segments_flatten_ne_nil {portions : List Bytes} (hportions : ∀ p ∈ portions, p ≠ [])
    (hstream : portions ≠ []) : segments portions.flatten ≠ [] := by
  obtain ⟨first, hfirst⟩ := List.exists_mem_of_ne_nil portions hstream
  have hne : portions.flatten ≠ [] :=
    fun hnil => hportions first hfirst (List.flatten_eq_nil_iff.1 hnil first hfirst)
  rw [segments_eq_cons hne]
  exact List.cons_ne_nil _ _

/-- The frames of a stream are one for each of its `segments`, and a segment is answered as a line
just when it fits. -/
lemma forall₂_all (hlimit : limit + 1 < UInt64.size) {portions : List Bytes}
    (hportions : ∀ p ∈ portions, p ≠ []) :
    List.Forall₂ (fun line frame => frame = .line line ↔ lineLength line ≤ limit)
      (segments portions.flatten) (Fetch.all limit portions) := by
  rw [Fetch.all_eq hlimit hportions, List.forall₂_map_right_iff, List.forall₂_same]
  intro line hline
  exact ofSegment_eq_line_iff ((isCut_segments portions.flatten).line line hline).2

end

/-! ## Links -/

namespace Intake

variable {i : Intake}

lemma arrive_of_isSome (h : i.ending.isSome = true) (bytes : Bytes) : i.arrive bytes = i := by
  obtain ⟨e, he⟩ := Option.isSome_iff_exists.1 h
  simp only [arrive, he]

lemma close_of_isSome (h : i.ending.isSome = true) (e : Ending) : i.close e = i := by
  obtain ⟨e', he⟩ := Option.isSome_iff_exists.1 h
  simp only [close, he]

end Intake

namespace Link

variable {ρ : Type}

/-- What can happen to a link from outside: bytes arrive, the input ends or breaks, or it is settled
whether the output is going to fail. -/
inductive Meets (l : Link ρ) : Link ρ → Prop where
  | arrive (bytes : Bytes) : l.Meets (l.arrive bytes)
  | endInput : l.Meets l.endInput
  | breakInput : l.Meets l.breakInput
  | output (brokenWrites brokenFlushes : Nat) : l.Meets { l with brokenWrites, brokenFlushes }

/-- A link that `isClosed` only when its input has ended and nothing of it is left. -/
def IsThorough (l : Link ρ) : Prop :=
  l.isClosed = true → l.intake.ending.isSome = true ∧ l.intake.arrived = []

variable {l l' : Link ρ}

lemma Keeps.isThorough (h : l.Keeps l') (hthorough : l.IsThorough) : l'.IsThorough := by
  rw [IsThorough, h.isClosed, h.intake]
  exact hthorough

lemma IsThorough.meets (hthorough : l.IsThorough) (h : l.Meets l') :
    l'.limit = l.limit ∧ l'.IsThorough := by
  -- a closed link stays as it is
  cases h with
  | arrive bytes =>
    refine ⟨rfl, fun hclosed => ?_⟩
    have hdone := hthorough hclosed
    rwa [Link.arrive, Intake.arrive_of_isSome hdone.1]
  | endInput =>
    refine ⟨rfl, fun hclosed => ?_⟩
    have hdone := hthorough hclosed
    rwa [Link.endInput, Intake.close_of_isSome hdone.1]
  | breakInput =>
    refine ⟨rfl, fun hclosed => ?_⟩
    have hdone := hthorough hclosed
    rwa [Link.breakInput, Intake.close_of_isSome hdone.1]
  | output => exact ⟨rfl, hthorough⟩

/-- A reader with any room closes the link only at the end of the input, and has read all of it by
then. -/
lemma Reads.isThorough (h : l.Reads l') (hroom : Framer.capacity l.limit ≠ 0) :
    l'.limit = l.limit ∧ l'.IsThorough := by
  cases h with
  | noRoom hnone => exact absurd hnone hroom
  | goesOn framer => exact ⟨rfl, fun hclosed => nomatch hclosed⟩
  | ends => exact ⟨rfl, fun _ => ⟨rfl, rfl⟩⟩

end Link

end Line

namespace Conductor.Host

/-! ## Hosts -/

variable {start h h' : Host}

/-- What can become of a host, whatever comes to its link, however its parts take turns, and
whatever becomes of the clock. -/
inductive GoesOn (start : Host) : Host → Prop where
  | start : GoesOn start start
  | meets {h : Host} (hgoes : GoesOn start h) {f : Link Receiver → Link Receiver}
      (hf : ∀ l : Link Receiver, l.Meets (f l)) : GoesOn start (h.mapLink f)
  | step {h h' : Host} (hgoes : GoesOn start h) (hstep : World.step? h = some h') :
      GoesOn start h'
  | nextRound {h h' : Host} (hgoes : GoesOn start h) (hround : World.nextRound? h = some h') :
      GoesOn start h'
  | clock {h : Host} (hgoes : GoesOn start h) (t : Nat) : GoesOn start (World.setClock h t)
  | tell {h : Host} (hgoes : GoesOn start h) : GoesOn start { h with isToldToStop := true }

/-- A `step?` of a site `Reads` what has arrived, or it `Keeps` the link but for its output. -/
lemma exists_link_of_siteStep? {s s' : Site} {l : Link Receiver}
    (hlink : s.access.carrier = .link l) (hstep : s.step? = some s') :
    ∃ l', s'.access.carrier = .link l' ∧ (l.Reads l' ∨ l.Keeps l') := by
  -- apart from the reader, only the worker touches the link, when it publishes
  cases Site.steps_of_step? hstep with
  | read hread =>
    obtain ⟨⟨ds, carrier⟩, harrived, rfl⟩ := Option.map_eq_some_iff.1 hread
    rw [hlink] at harrived
    obtain ⟨l', hl, hcan, rfl⟩ := Carrier.exists_link_of_readArrived? harrived
    cases hl
    refine ⟨l.readArrived.2, ?_, .inl (Link.reads_readArrived hcan)⟩
    rw [(Site.delivered_deliverAll _ ds).access]
  | giveWay | rest => exact ⟨l, hlink, .inr ⟨rfl, rfl, rfl⟩⟩
  | @goOn p ps _ hready hpart =>
    cases p with
    | worker =>
      obtain ⟨log, hworks⟩ := Site.exists_works hpart
      rcases hworks.access_cases with ⟨haccess, -⟩ | ⟨m, result, c, hpublish, hcarrier, -⟩
      · exact ⟨l, haccess ▸ hlink, .inr ⟨rfl, rfl, rfl⟩⟩
      · rw [hlink] at hpublish
        obtain ⟨rfl, -⟩ := Carrier.publish_link hpublish
        exact ⟨_, hcarrier, .inr (l.keeps_publish m)⟩
    | tap index =>
      obtain ⟨t, -, t', -, rfl⟩ := Site.tapStep?_eq_some hpart
      exact ⟨l, hlink, .inr ⟨rfl, rfl, rfl⟩⟩

/-- A `World.step?` of a host `Reads` or `Keeps` its link; it may also change the subscriptions. -/
lemma exists_link_of_step? {l : Link Receiver} (hlink : h.site.access.carrier = .link l)
    (hstep : World.step? h = some h') :
    ∃ l', h'.site.access.carrier = .link l' ∧ (l.Reads l' ∨ l.Keeps l') := by
  rcases step?_cases hstep with ⟨site, hsite, rfl⟩ | hstage
  · exact exists_link_of_siteStep? hlink hsite
  · rcases stageStep?_cases hstage with rfl | ⟨⟨-, ⟨t, hcarrier⟩⟩, -⟩
    · refine ⟨l, ?_, .inr ⟨rfl, rfl, rfl⟩⟩
      rw [Site.orderStop, Site.access_wake]
      exact hlink
    · rw [hlink] at hcarrier
      exact ⟨_, hcarrier, .inr ⟨rfl, rfl, rfl⟩⟩

/-- The link of a host has the given limit, and `IsThorough`. -/
def IsThorough (limit : Nat) (h : Host) : Prop :=
  ∃ l, h.site.access.carrier = .link l ∧ l.limit = limit ∧ l.IsThorough

section
variable {limit : Nat}

lemma IsThorough.step (hthorough : h.IsThorough limit) (hroom : Line.Framer.capacity limit ≠ 0)
    (hstep : World.step? h = some h') : h'.IsThorough limit := by
  obtain ⟨l, hlink, rfl, hl⟩ := hthorough
  obtain ⟨l', hlink', hreads | hkeeps⟩ := exists_link_of_step? hlink hstep
  · exact ⟨l', hlink', hreads.isThorough hroom⟩
  · exact ⟨l', hlink', hkeeps.limit, hkeeps.isThorough hl⟩

/-- With any room for a line, a host that `GoesOn` never takes its input for ended before it is. -/
lemma GoesOn.isThorough (hgoes : start.GoesOn h) (hstart : start.IsThorough limit)
    (hroom : Line.Framer.capacity limit ≠ 0) : h.IsThorough limit := by
  induction hgoes with
  | start => exact hstart
  | @meets h _ f hf ih =>
    obtain ⟨l, hlink, rfl, hl⟩ := ih
    obtain ⟨hlimit, hl'⟩ := hl.meets (hf l)
    refine ⟨f l, ?_, hlimit, hl'⟩
    simp only [mapLink, hlink]
  | step _ hstep ih => exact ih.step hroom hstep
  | nextRound _ hround ih =>
    obtain ⟨site, hnext, rfl⟩ := Option.map_eq_some_iff.1 hround
    obtain ⟨-, rfl⟩ := Site.nextRound?_eq_some_iff.1 hnext
    exact ih
  | clock _ t ih =>
    obtain ⟨l, hlink, hl⟩ := ih
    refine ⟨l, ?_, hl⟩
    show (Site.wake _ _).access.carrier = _
    rw [Site.access_wake]
    exact hlink
  | tell _ ih => exact ih

end

/-- With valid settings a host starts on every link that has not been started, and reads it from the
start of a line, with the limit of the settings. -/
lemma exists_start_reading {settings : Settings} (hvalid : settings.validate = .ok ())
    {link : Link Receiver} (hunstarted : link.reader = .unstarted) :
    ∃ start l, Host.start settings link = .ok start ∧ start.stage = .running ∧
      start.site.access.carrier = .link l ∧ l.limit = settings.bus.maxLine.toNat ∧
      l.intake = link.intake ∧ l.reader = .reading (.fresh settings.bus.maxLine.toNat) := by
  obtain ⟨⟨r, hregistry, hdefect⟩, -, hline, -⟩ := Settings.validate_spec hvalid
  have hmax : max settings.bus.maxLine.toNat 1 = settings.bus.maxLine.toNat :=
    Nat.max_eq_left (Settings.toNat_pos hline)
  obtain ⟨site, tap, hstart, -, hcarrier, -, -⟩ := exists_start_on hdefect hregistry hunstarted
  rw [hmax] at hcarrier
  refine ⟨_, { link with
    limit := settings.bus.maxLine.toNat
    subscriptions := link.subscriptions.grantAll
      (tapRequests settings r ++ Site.inboxRequests r settings.bus.inboundQos)
    reader := .reading (.fresh settings.bus.maxLine.toNat) }, hstart, ?_, ?_, rfl, rfl, rfl⟩
  · simp only [mapLink, hcarrier]
  · simp only [mapLink, hcarrier, Link.start, hunstarted]

/-- With `capacity` zero, the first step of a host is to take its input for ended, whatever waits to
be read. -/
lemma step?_of_no_room {l : Link Receiver} {framer : Line.Framer} (hstage : h.stage = .running)
    (hlink : h.site.access.carrier = .link l) (hreader : l.reader = .reading framer)
    (hroom : Line.Framer.capacity l.limit = 0) :
    World.step? h = some { h with site := { h.site with access := { h.site.access with
      carrier := .link { l with reader := .finished } } } } := by
  have hread : h.site.readStep? = some { h.site with access := { h.site.access with
      carrier := .link { l with reader := .finished } } } := by
    simp [Site.readStep?, hlink, Carrier.readArrived?, Link.canRead, Link.readArrived, hreader,
      hroom, Site.deliverAll]
  rw [step?_of_running hstage, Site.step?, hread]

open Line (Frame Framer Fetch greatestLimit lineLength newline segments)

/-- Every limit but zero is valid. Unless it is `greatestLimit`, calls answer that the stream has
ended only when nothing is left of it, and as lines exactly those of at most `limit` bytes, and the
running host takes its input for ended only when it is. With `greatestLimit` all of this fails. -/
theorem line_limit_is_exact {settings : Settings} (hvalid : settings.validate = .ok ())
    {portions : List Bytes} (hportions : ∀ p ∈ portions, p ≠ []) (hstream : portions ≠ []) :
    let limit := settings.bus.maxLine.toNat
    (∀ word, { settings with bus := { settings.bus with maxLine := word } }.validate = .ok () ↔
      word ≠ 0) ∧
    (settings.bus.maxLine + 1).toNat = Framer.capacity limit ∧
    (Framer.capacity limit = limit + 1 ↔ settings.bus.maxLine ≠ greatestLimit) ∧
    -- calls answer that the stream has ended only at its end
    ((∀ rest, Fetch.Passes limit portions ⟨.done none, rest⟩ → rest = []) ↔
      settings.bus.maxLine ≠ greatestLimit) ∧
    -- the frames tell which lines fit
    (List.Forall₂ (fun line frame => frame = .line line ↔ lineLength line ≤ limit)
        (segments portions.flatten) (Fetch.all limit portions) ↔
      settings.bus.maxLine ≠ greatestLimit) ∧
    -- a host reads on until its input ends
    ∀ link : Link Receiver, link.reader = .unstarted → link.intake.ending = none →
      ∃ start, Host.start settings link = .ok start ∧ start.IsThorough limit ∧
        ((∀ h, start.GoesOn h → h.IsThorough limit) ↔ settings.bus.maxLine ≠ greatestLimit) := by
  intro limit
  have hroom (hword : settings.bus.maxLine ≠ greatestLimit) : limit + 1 < UInt64.size :=
    Line.lt_size_iff.2 hword
  have hnoRoom (hword : settings.bus.maxLine = greatestLimit) : Framer.capacity limit = 0 := by
    rw [show limit = greatestLimit.toNat from congrArg UInt64.toNat hword]
    exact Line.capacity_greatestLimit
  refine ⟨fun word => Settings.validate_withMaxLine_iff hvalid, rfl, Line.capacity_eq_iff,
    ⟨fun hends hword => ?_, fun hword rest hpasses => ?_⟩,
    ⟨fun hframes hword => ?_, fun hword => ?_⟩, fun link hunstarted hending => ?_⟩
  · -- the first call ends at once and leaves all portions
    have hfirst : Fetch.Passes limit portions ((Fetch.begin portions).step limit) := .step .first
    rw [Fetch.step_begin_of_no_room (hnoRoom hword) hportions] at hfirst
    exact hstream (hends portions hfirst)
  · exact hpasses.eq_nil (hroom hword) hportions
  · -- there is a line, and no frame for it
    rw [Fetch.all_of_no_room (hnoRoom hword) hportions, List.forall₂_nil_right_iff] at hframes
    exact Line.segments_flatten_ne_nil hportions hstream hframes
  · exact Line.forall₂_all (hroom hword) hportions
  · obtain ⟨start, l, hstart, hstage, hlink, hlimit, hintake, hreader⟩ :=
      exists_start_reading hvalid hunstarted
    have hthorough : start.IsThorough limit := by
      refine ⟨l, hlink, hlimit, fun hclosed => ?_⟩
      rw [Link.isClosed, hreader] at hclosed
      cases hclosed
    refine ⟨start, hstart, hthorough, fun hall hword => ?_, fun hword h hgoes => ?_⟩
    · -- the first step closes the link, whose input has not ended
      have hstep := step?_of_no_room hstage hlink hreader (hlimit ▸ hnoRoom hword)
      obtain ⟨l', hlink', -, hl'⟩ := hall _ (GoesOn.start.step hstep)
      cases hlink'
      obtain ⟨hended, -⟩ := hl' rfl
      rw [hintake, hending] at hended
      cases hended
    · apply hgoes.isThorough hthorough
      rw [Framer.capacity_eq (hroom hword)]
      exact Nat.succ_ne_zero _

/-- The limit one below `greatestLimit`, with a stream in two portions. -/
theorem line_limit_is_exact_below_greatest :
    let settings : Settings := { bus := { maxLine := greatestLimit - 1 } }
    let limit := settings.bus.maxLine.toNat
    let portions : List Bytes := [[0x61, 0x62], [newline, 0x63]]
    settings.validate = .ok () ∧ (∀ p ∈ portions, p ≠ []) ∧ portions ≠ [] ∧
    Framer.capacity limit = 18446744073709551615 ∧
    (∀ rest, Fetch.Passes limit portions ⟨.done none, rest⟩ → rest = []) ∧
    List.Forall₂ (fun line frame => frame = .line line ↔ lineLength line ≤ limit)
      [[0x61, 0x62, newline], [0x63]] (Fetch.all limit portions) ∧
    ∃ start, Host.start settings {} = .ok start ∧ ∀ h, start.GoesOn h → h.IsThorough limit := by
  intro settings limit portions
  have hvalid : settings.validate = .ok () :=
    (Settings.validate_withMaxLine_iff Settings.validate_stock).2 (by decide)
  have hportions : ∀ p ∈ portions, p ≠ [] := by decide
  have hstream : portions ≠ [] := by decide
  have hword : settings.bus.maxLine ≠ greatestLimit := by decide
  obtain ⟨-, -, hroom, hends, hframes, hhosts⟩ :=
    line_limit_is_exact hvalid hportions hstream
  obtain ⟨start, hstart, -, hhost⟩ := hhosts {} rfl rfl
  exact ⟨hvalid, hportions, hstream, hroom.2 hword, hends.2 hword, hframes.2 hword, start, hstart,
    hhost.2 hword⟩

/-- With `greatestLimit`, which is valid, there is no room for a line: a call answers that the
stream has ended and leaves all of it, and a host whose input goes on, and holds a line that is
waited for, takes the input for ended. -/
theorem greatest_limit_ends_input :
    let settings : Settings := { bus := { maxLine := greatestLimit } }
    let limit := settings.bus.maxLine.toNat
    let line := Utf8.encode "rhasspy/wake-word/detected\n"
    settings.validate = .ok () ∧ segments line = [line] ∧ lineLength line ≤ limit ∧
    (settings.bus.maxLine + 1).toNat = 0 ∧ Framer.capacity limit = 0 ∧
    (Fetch.begin [line]).run limit = (none, [line]) ∧ Fetch.all limit [line] = [] ∧
    ∃ start h, Host.start settings { intake := { arrived := line } } = .ok start ∧
      World.step? start = some h ∧ h.isInputClosed = true ∧
      h.link?.map Link.intake = some { arrived := line } := by
  intro settings limit line
  have hvalid : settings.validate = .ok () :=
    (Settings.validate_withMaxLine_iff Settings.validate_stock).2 (by decide)
  have hportions : ∀ p ∈ [line], p ≠ [] := by decide +kernel
  have hroom : Framer.capacity limit = 0 := Line.capacity_greatestLimit
  have hunstarted : ({ intake := { arrived := line } } : Link Receiver).reader = .unstarted := rfl
  obtain ⟨start, l, hstart, hstage, hlink, hlimit, hintake, hreader⟩ :=
    exists_start_reading hvalid hunstarted
  have hstep := step?_of_no_room hstage hlink hreader (hlimit ▸ hroom)
  refine ⟨hvalid, by decide +kernel, by decide +kernel, by decide, hroom,
    Fetch.run_begin_of_no_room hroom hportions, Fetch.all_of_no_room hroom hportions, start, _,
    hstart, hstep, rfl, ?_⟩
  exact congrArg some hintake

end Conductor.Host

end VoiceTurn
