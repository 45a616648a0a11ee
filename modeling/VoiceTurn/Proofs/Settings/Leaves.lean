import Mathlib.Tactic.Lemma
import VoiceTurn.Settings.Source

/-!
# The leaves of the settings

Settings are a tree: sections, which hold single values, and two books of texts. Each single value
is a leaf, with a path of names that leads to it. Whatever settings are read from, they are read
leaf by leaf and book by book (`Settings.read?_eq_some_iff`), as long as the source has records
where the settings have sections.
-/

namespace VoiceTurn.Settings

open Source (field?)

/-! ## Leaves and books -/

inductive Kind where
  | word64
  | word32
  | flag
  | text
  | qos
  | secondWake

namespace Kind

def Value : Kind → Type
  | word64 => UInt64
  | word32 => UInt32
  | flag => Bool
  | text => String
  | qos => Bus.Qos
  | secondWake => SecondWake

def read {τ : Type} (s : Source τ) : (k : Kind) → τ → Option k.Value
  | word64 => s.word64?
  | word32 => s.word32?
  | flag => s.flag?
  | text => s.text?
  | qos => s.qos?
  | secondWake => s.secondWake?

end Kind

/-- The places of single values in `Settings`. -/
inductive Leaf where
  | stallTimeout
  | secondWake
  | queueCapacity
  | feedCapacity
  | root
  | inboundQos
  | outboundQos
  | maxLine
  | attempts
  | initialPause
  | longestPause
  | general
  | fallback
  | enabled
  | capacity
  | level
  | asJson
  deriving DecidableEq

namespace Leaf

def all : List Leaf :=
  [stallTimeout, secondWake, queueCapacity, feedCapacity, root, inboundQos, outboundQos, maxLine,
    attempts, initialPause, longestPause, general, fallback, enabled, capacity, level, asJson]

lemma mem_all (l : Leaf) : l ∈ all := by cases l <;> decide

def kind : Leaf → Kind
  | secondWake => .secondWake
  | inboundQos | outboundQos => .qos
  | stallTimeout | queueCapacity | feedCapacity | maxLine | initialPause | longestPause
  | capacity => .word64
  | attempts => .word32
  | enabled | asJson => .flag
  | root | general | fallback | level => .text

/-- The names that lead to a leaf. -/
def path : Leaf → List String
  | stallTimeout => ["orchestrator", "stall_timeout_ms"]
  | secondWake => ["orchestrator", "second_wake_policy"]
  | queueCapacity => ["orchestrator", "event_queue_capacity"]
  | feedCapacity => ["orchestrator", "event_channel_capacity"]
  | root => ["topics", "prefix"]
  | inboundQos => ["bus", "inbound_qos"]
  | outboundQos => ["bus", "outbound_qos"]
  | maxLine => ["bus", "max_line_bytes"]
  | attempts => ["bus", "retry", "max_attempts"]
  | initialPause => ["bus", "retry", "initial_backoff_ms"]
  | longestPause => ["bus", "retry", "max_backoff_ms"]
  | general => ["responses", "default_template"]
  | fallback => ["responses", "fallback"]
  | enabled => ["tap", "enabled"]
  | capacity => ["tap", "capacity"]
  | level => ["observability", "log_level"]
  | asJson => ["observability", "log_json"]

def value : (l : Leaf) → Settings → l.kind.Value
  | stallTimeout, s => s.turn.stallTimeout
  | secondWake, s => s.turn.secondWake
  | queueCapacity, s => s.turn.queueCapacity
  | feedCapacity, s => s.turn.feedCapacity
  | root, s => s.topics.root
  | inboundQos, s => s.bus.inboundQos
  | outboundQos, s => s.bus.outboundQos
  | maxLine, s => s.bus.maxLine
  | attempts, s => s.bus.retry.attempts
  | initialPause, s => s.bus.retry.initialPause
  | longestPause, s => s.bus.retry.longestPause
  | general, s => s.responses.general
  | fallback, s => s.responses.fallback
  | enabled, s => s.tap.enabled
  | capacity, s => s.tap.capacity
  | level, s => s.log.level
  | asJson, s => s.log.asJson

end Leaf

/-- The places of dictionaries in `Settings`. -/
inductive Book where
  | overrides
  | templates
  deriving DecidableEq

namespace Book

def all : List Book := [overrides, templates]

lemma mem_all (b : Book) : b ∈ all := by cases b <;> decide

def path : Book → List String
  | overrides => ["topics", "overrides"]
  | templates => ["responses", "templates"]

def entries : Book → Settings → Dict String
  | overrides, s => s.topics.overrides
  | templates, s => s.responses.templates

end Book

/-! ## Reading them -/

section
variable {τ : Type} (s : Source τ) (entry : τ → String → Option τ)

/-- What stands at the end of a path of names, where `entry` gives what has a name. -/
def follow : Option τ → List String → Option τ
  | t, [] => t
  | t, name :: names => follow (t.bind (entry · name)) names

lemma follow_none (names : List String) : follow entry none names = none := by
  induction names with
  | nil => rfl
  | cons name names ih => exact ih

lemma follow_append (t : Option τ) (names names' : List String) :
    follow entry t (names ++ names') = follow entry (follow entry t names) names' := by
  induction names generalizing t with
  | nil => rfl
  | cons name names ih => exact ih _

lemma follow_cons_eq_some_iff {t u : τ} {name : String} {names : List String} :
    follow entry (some t) (name :: names) = some u ↔
      ∃ m, entry t name = some m ∧ follow entry (some m) names = some u := by
  rw [follow, Option.bind_some]
  cases entry t name with
  | none => simp [follow_none]
  | some m => simp

/-- What may stand at a place is read by `fields?` as the entries of the `names`. -/
def IsRecord (names : List String) (t : Option τ) : Prop :=
  ∀ u, t = some u → s.fields? names u = some (names.map (entry u))

variable {s entry} {t : Option τ}

lemma field?_readTurn?_eq_some_iff (h : IsRecord s entry turnFields t)
    {x : TurnSettings} :
    field? {} (readTurn? s) t = some x ↔
      field? ({} : TurnSettings).stallTimeout s.word64?
        (t.bind (entry · "stall_timeout_ms")) = some x.stallTimeout ∧
      field? ({} : TurnSettings).secondWake s.secondWake?
        (t.bind (entry · "second_wake_policy")) = some x.secondWake ∧
      field? ({} : TurnSettings).queueCapacity s.word64?
        (t.bind (entry · "event_queue_capacity")) = some x.queueCapacity ∧
      field? ({} : TurnSettings).feedCapacity s.word64?
        (t.bind (entry · "event_channel_capacity")) = some x.feedCapacity := by
  obtain ⟨stallTimeout, secondWake, queueCapacity, feedCapacity⟩ := x
  cases t with
  | none => simp [field?]
  | some u =>
    show readTurn? s u = _ ↔ _
    simp only [readTurn?, h u rfl]
    simp only [turnFields, List.map_cons, List.map_nil, Option.bind_eq_bind, Option.bind_some,
      Option.bind_eq_some_iff, Option.some.injEq, TurnSettings.mk.injEq, ← and_assoc,
      exists_eq_right]

lemma field?_readTopics?_eq_some_iff (h : IsRecord s entry topicFields t)
    {x : TopicSettings} :
    field? {} (readTopics? s) t = some x ↔
      field? ({} : TopicSettings).root s.text? (t.bind (entry · "prefix")) = some x.root ∧
      field? ({} : TopicSettings).overrides s.dict?
        (t.bind (entry · "overrides")) = some x.overrides := by
  obtain ⟨root, overrides⟩ := x
  cases t with
  | none => simp [field?]
  | some u =>
    show readTopics? s u = _ ↔ _
    simp only [readTopics?, h u rfl]
    simp only [topicFields, List.map_cons, List.map_nil, Option.bind_eq_bind, Option.bind_some,
      Option.bind_eq_some_iff, Option.some.injEq, TopicSettings.mk.injEq, ← and_assoc,
      exists_eq_right]

lemma field?_readRetrySettings?_eq_some_iff (h : IsRecord s entry retryFields t)
    {x : RetrySettings} :
    field? {} (readRetrySettings? s) t = some x ↔
      field? ({} : RetrySettings).attempts s.word32?
        (t.bind (entry · "max_attempts")) = some x.attempts ∧
      field? ({} : RetrySettings).initialPause s.word64?
        (t.bind (entry · "initial_backoff_ms")) = some x.initialPause ∧
      field? ({} : RetrySettings).longestPause s.word64?
        (t.bind (entry · "max_backoff_ms")) = some x.longestPause := by
  obtain ⟨attempts, initialPause, longestPause⟩ := x
  cases t with
  | none => simp [field?]
  | some u =>
    show readRetrySettings? s u = _ ↔ _
    simp only [readRetrySettings?, h u rfl]
    simp only [retryFields, List.map_cons, List.map_nil, Option.bind_eq_bind, Option.bind_some,
      Option.bind_eq_some_iff, Option.some.injEq, RetrySettings.mk.injEq, ← and_assoc,
      exists_eq_right]

lemma field?_readBus?_eq_some_iff (h : IsRecord s entry busFields t)
    {x : BusSettings} :
    field? {} (readBus? s) t = some x ↔
      field? ({} : BusSettings).inboundQos s.qos?
        (t.bind (entry · "inbound_qos")) = some x.inboundQos ∧
      field? ({} : BusSettings).outboundQos s.qos?
        (t.bind (entry · "outbound_qos")) = some x.outboundQos ∧
      field? ({} : BusSettings).maxLine s.word64?
        (t.bind (entry · "max_line_bytes")) = some x.maxLine ∧
      field? ({} : BusSettings).retry (readRetrySettings? s)
        (t.bind (entry · "retry")) = some x.retry := by
  obtain ⟨inboundQos, outboundQos, maxLine, retry⟩ := x
  cases t with
  | none => simp [field?]
  | some u =>
    show readBus? s u = _ ↔ _
    simp only [readBus?, h u rfl]
    simp only [busFields, List.map_cons, List.map_nil, Option.bind_eq_bind, Option.bind_some,
      Option.bind_eq_some_iff, Option.some.injEq, BusSettings.mk.injEq, ← and_assoc,
      exists_eq_right]

lemma field?_readResponses?_eq_some_iff (h : IsRecord s entry responseFields t)
    {x : Response.Phrases} :
    field? {} (readResponses? s) t = some x ↔
      field? ({} : Response.Phrases).templates s.dict?
        (t.bind (entry · "templates")) = some x.templates ∧
      field? ({} : Response.Phrases).general s.text?
        (t.bind (entry · "default_template")) = some x.general ∧
      field? ({} : Response.Phrases).fallback s.text?
        (t.bind (entry · "fallback")) = some x.fallback := by
  obtain ⟨templates, general, fallback⟩ := x
  cases t with
  | none => simp [field?]
  | some u =>
    show readResponses? s u = _ ↔ _
    simp only [readResponses?, h u rfl]
    simp only [responseFields, List.map_cons, List.map_nil, Option.bind_eq_bind, Option.bind_some,
      Option.bind_eq_some_iff, Option.some.injEq, Response.Phrases.mk.injEq, ← and_assoc,
      exists_eq_right]

lemma field?_readTap?_eq_some_iff (h : IsRecord s entry tapFields t)
    {x : TapSettings} :
    field? {} (readTap? s) t = some x ↔
      field? ({} : TapSettings).enabled s.flag? (t.bind (entry · "enabled")) = some x.enabled ∧
      field? ({} : TapSettings).capacity s.word64?
        (t.bind (entry · "capacity")) = some x.capacity := by
  obtain ⟨enabled, capacity⟩ := x
  cases t with
  | none => simp [field?]
  | some u =>
    show readTap? s u = _ ↔ _
    simp only [readTap?, h u rfl]
    simp only [tapFields, List.map_cons, List.map_nil, Option.bind_eq_bind, Option.bind_some,
      Option.bind_eq_some_iff, Option.some.injEq, TapSettings.mk.injEq, ← and_assoc,
      exists_eq_right]

lemma field?_readLog?_eq_some_iff (h : IsRecord s entry logFields t)
    {x : LogSettings} :
    field? {} (readLog? s) t = some x ↔
      field? ({} : LogSettings).level s.text? (t.bind (entry · "log_level")) = some x.level ∧
      field? ({} : LogSettings).asJson s.flag? (t.bind (entry · "log_json")) = some x.asJson := by
  obtain ⟨level, asJson⟩ := x
  cases t with
  | none => simp [field?]
  | some u =>
    show readLog? s u = _ ↔ _
    simp only [readLog?, h u rfl]
    simp only [logFields, List.map_cons, List.map_nil, Option.bind_eq_bind, Option.bind_some,
      Option.bind_eq_some_iff, Option.some.injEq, LogSettings.mk.injEq, ← and_assoc,
      exists_eq_right]

lemma read?_eq_some_iff_sections {u : τ} (h : IsRecord s entry sections (some u)) {x : Settings} :
    read? s u = some x ↔
      field? {} (readTurn? s) (entry u "orchestrator") = some x.turn ∧
      field? {} (readTopics? s) (entry u "topics") = some x.topics ∧
      field? {} (readBus? s) (entry u "bus") = some x.bus ∧
      field? {} (readResponses? s) (entry u "responses") = some x.responses ∧
      field? {} (readTap? s) (entry u "tap") = some x.tap ∧
      field? {} (readLog? s) (entry u "observability") = some x.log := by
  obtain ⟨turn, topics, bus, responses, tap, log⟩ := x
  have hfields : s.fields? sections u = some [entry u "orchestrator", entry u "topics",
    entry u "bus", entry u "responses", entry u "tap", entry u "observability"] := h u rfl
  simp only [read?, hfields, Option.bind_eq_bind, Option.bind_some, Option.bind_eq_some_iff,
    Option.some.injEq, Settings.mk.injEq, ← and_assoc, exists_eq_right]

/-- The sections, each with the names of its fields. -/
def sectionFields : List (List String × List String) :=
  [([], sections), (["orchestrator"], turnFields), (["topics"], topicFields), (["bus"], busFields),
    (["bus", "retry"], retryFields), (["responses"], responseFields), (["tap"], tapFields),
    (["observability"], logFields)]

/-- Where every section is a record, `read?` gives the settings whose leaves and books are read from
their paths. -/
lemma read?_eq_some_iff {u : τ}
    (h : ∀ p ∈ sectionFields, IsRecord s entry p.2 (follow entry (some u) p.1)) {x : Settings} :
    read? s u = some x ↔
      (∀ leaf : Leaf, field? (leaf.value .stock) (leaf.kind.read s)
        (follow entry (some u) leaf.path) = some (leaf.value x)) ∧
      ∀ book : Book, field? .empty s.dict? (follow entry (some u) book.path) =
        some (book.entries x) := by
  simp only [sectionFields, List.forall_mem_cons] at h
  obtain ⟨hroot, hturn, htopics, hbus, hretry, hresponses, htap, hlog, -⟩ := h
  rw [read?_eq_some_iff_sections hroot]
  constructor
  · rintro ⟨turn, topics, bus, responses, tap, log⟩
    obtain ⟨stallTimeout, secondWake, queueCapacity, feedCapacity⟩ :=
      (field?_readTurn?_eq_some_iff hturn).1 turn
    obtain ⟨root, overrides⟩ := (field?_readTopics?_eq_some_iff htopics).1 topics
    obtain ⟨inboundQos, outboundQos, maxLine, retry⟩ := (field?_readBus?_eq_some_iff hbus).1 bus
    obtain ⟨attempts, initialPause, longestPause⟩ :=
      (field?_readRetrySettings?_eq_some_iff hretry).1 retry
    obtain ⟨templates, general, fallback⟩ :=
      (field?_readResponses?_eq_some_iff hresponses).1 responses
    obtain ⟨enabled, capacity⟩ := (field?_readTap?_eq_some_iff htap).1 tap
    obtain ⟨level, asJson⟩ := (field?_readLog?_eq_some_iff hlog).1 log
    exact ⟨fun leaf => by cases leaf <;> assumption, fun book => by cases book <;> assumption⟩
  · rintro ⟨leaves, books⟩
    have retry := (field?_readRetrySettings?_eq_some_iff hretry).2
      ⟨leaves .attempts, leaves .initialPause, leaves .longestPause⟩
    exact ⟨(field?_readTurn?_eq_some_iff hturn).2 ⟨leaves .stallTimeout, leaves .secondWake,
        leaves .queueCapacity, leaves .feedCapacity⟩,
      (field?_readTopics?_eq_some_iff htopics).2 ⟨leaves .root, books .overrides⟩,
      (field?_readBus?_eq_some_iff hbus).2 ⟨leaves .inboundQos, leaves .outboundQos,
        leaves .maxLine, retry⟩,
      (field?_readResponses?_eq_some_iff hresponses).2 ⟨books .templates, leaves .general,
        leaves .fallback⟩,
      (field?_readTap?_eq_some_iff htap).2 ⟨leaves .enabled, leaves .capacity⟩,
      (field?_readLog?_eq_some_iff hlog).2 ⟨leaves .level, leaves .asJson⟩⟩

end

end VoiceTurn.Settings
