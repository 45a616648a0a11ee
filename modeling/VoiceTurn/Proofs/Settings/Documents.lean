import VoiceTurn.Proofs.Json.Decoding
import VoiceTurn.Proofs.Settings.Leaves
import VoiceTurn.Settings.Document

/-!
# Settings as documents

Settings are written with the value of every leaf and the entries of every book at their paths
(`follow_toValue_leaf`, `follow_toValue_book`), so reading the text of a document gives back the
settings that were written (`ofText?_of_isWritingOf`), whatever they are and in whatever order the
members have been written.
-/

namespace VoiceTurn.Settings

open Json (Tree Value)

/-! ## What is written -/

/-- The value that is written for a single value. -/
def Kind.write : (k : Kind) → k.Value → Json.Value
  | .word64, x => .ofNat (UInt64.toNat x)
  | .word32, x => .ofNat (UInt32.toNat x)
  | .flag, x => .bool x
  | .text, x => .string x
  | .qos, x => .string (Bus.Qos.name x)
  | .secondWake, x => .string (SecondWake.name x)

section
variable {names : List String} {values : List Value} {name : String} {v : Value}

lemma member?_record (hnames : names.Nodup) (hlength : names.length = values.length)
    (hv : (names.zip values).lookup name = some v) :
    (record names values).member? name = some v := by
  have hkeys : ((names.zip values).map Prod.fst).Nodup := by rwa [List.map_fst_zip hlength.le]
  rw [record, Value.ofMembers_eq]
  exact (Dict.get?_ofList hkeys).trans hv

lemma follow_record (hnames : names.Nodup) (hlength : names.length = values.length)
    (hv : (names.zip values).lookup name = some v) (rest : List String) :
    follow Value.member? (some (record names values)) (name :: rest) =
      follow Value.member? (some v) rest := by
  rw [follow, Option.bind_some, member?_record hnames hlength hv]

/-- A `record` is neat when its parts are. -/
lemma isNeat_record {IsKey : String → Prop} {depth : Nat} (hkeys : ∀ name ∈ names, IsKey name)
    (h : ∀ v ∈ values, v.IsNeat IsKey depth) : (record names values).IsNeat IsKey (depth + 1) := by
  rw [record, Value.ofMembers_eq]
  refine .object (Dict.ofList _).sorted (fun m hm => ?_) fun m hm => ?_
  · exact hkeys m.1 (List.of_mem_zip (Dict.mem_ofList hm)).1
  · exact h m.2 (List.of_mem_zip (Dict.mem_ofList hm)).2

end

section
variable (s : Settings) (rest : List String)

lemma follow_turn : follow Value.member? (some s.toValue) ("orchestrator" :: rest) =
    follow Value.member? (some (turnValue s.turn)) rest :=
  follow_record (by decide) rfl rfl rest

lemma follow_topics : follow Value.member? (some s.toValue) ("topics" :: rest) =
    follow Value.member? (some (topicsValue s.topics)) rest :=
  follow_record (by decide) rfl rfl rest

lemma follow_bus : follow Value.member? (some s.toValue) ("bus" :: rest) =
    follow Value.member? (some (busValue s.bus)) rest :=
  follow_record (by decide) rfl rfl rest

lemma follow_retry : follow Value.member? (some s.toValue) ("bus" :: "retry" :: rest) =
    follow Value.member? (some (retryValue s.bus.retry)) rest :=
  (follow_bus s _).trans (follow_record (by decide) rfl rfl rest)

lemma follow_responses : follow Value.member? (some s.toValue) ("responses" :: rest) =
    follow Value.member? (some (responsesValue s.responses)) rest :=
  follow_record (by decide) rfl rfl rest

lemma follow_tap : follow Value.member? (some s.toValue) ("tap" :: rest) =
    follow Value.member? (some (tapValue s.tap)) rest :=
  follow_record (by decide) rfl rfl rest

lemma follow_log : follow Value.member? (some s.toValue) ("observability" :: rest) =
    follow Value.member? (some (logValue s.log)) rest :=
  follow_record (by decide) rfl rfl rest

end

/-- Settings are written with the value of every `Leaf` at its path. -/
lemma follow_toValue_leaf (s : Settings) (leaf : Leaf) :
    follow Value.member? (some s.toValue) leaf.path = some (leaf.kind.write (leaf.value s)) := by
  cases leaf with
  | stallTimeout | secondWake | queueCapacity | feedCapacity =>
    exact (follow_turn s _).trans (follow_record (by decide) rfl rfl [])
  | root => exact (follow_topics s _).trans (follow_record (by decide) rfl rfl [])
  | inboundQos | outboundQos | maxLine =>
    exact (follow_bus s _).trans (follow_record (by decide) rfl rfl [])
  | attempts | initialPause | longestPause =>
    exact (follow_retry s _).trans (follow_record (by decide) rfl rfl [])
  | general | fallback =>
    exact (follow_responses s _).trans (follow_record (by decide) rfl rfl [])
  | enabled | capacity => exact (follow_tap s _).trans (follow_record (by decide) rfl rfl [])
  | level | asJson => exact (follow_log s _).trans (follow_record (by decide) rfl rfl [])

/-- Settings are written with the entries of every `Book` at its path. -/
lemma follow_toValue_book (s : Settings) (book : Book) :
    follow Value.member? (some s.toValue) book.path = some (dictValue (book.entries s)) := by
  cases book with
  | overrides => exact (follow_topics s _).trans (follow_record (by decide) rfl rfl [])
  | templates => exact (follow_responses s _).trans (follow_record (by decide) rfl rfl [])

lemma exists_follow_toValue_section (s : Settings) {e : List String × List String}
    (h : e ∈ sectionFields) :
    ∃ ms, follow Value.member? (some s.toValue) e.1 = some (.object ms) := by
  revert e
  simp only [sectionFields, List.forall_mem_cons]
  exact ⟨⟨_, rfl⟩, ⟨_, follow_turn s []⟩, ⟨_, follow_topics s []⟩, ⟨_, follow_bus s []⟩,
    ⟨_, follow_retry s []⟩, ⟨_, follow_responses s []⟩, ⟨_, follow_tap s []⟩,
    ⟨_, follow_log s []⟩, List.forall_mem_nil _⟩

/-- The document of settings `IsNeat` when all names are as `IsKey` has it. -/
lemma isNeat_toValue {IsKey : String → Prop} {s : Settings} (depth : Nat)
    (hnames : ∀ e ∈ sectionFields, ∀ name ∈ e.2, IsKey name)
    (hbooks : ∀ book : Book, ∀ e ∈ (book.entries s).entries, IsKey e.1) :
    s.toValue.IsNeat IsKey (depth + 3) := by
  have hdict (book : Book) : (dictValue (book.entries s)).IsNeat IsKey (depth + 1) := by
    refine .object (List.pairwise_map.2 (book.entries s).sorted) ?_ ?_
    · intro m hm
      obtain ⟨e, he, rfl⟩ := List.mem_map.1 hm
      exact hbooks book e he
    · intro m hm
      obtain ⟨e, -, rfl⟩ := List.mem_map.1 hm
      exact .text e.2
  simp only [sectionFields, List.forall_mem_cons] at hnames
  obtain ⟨hroot, hturn, htopics, hbus, hretry, hresponses, htap, hlog, -⟩ := hnames
  have word64 (depth : Nat) (x : UInt64) : (Value.ofNat x.toNat).IsNeat IsKey depth :=
    .word x.toNat_lt
  have word32 (depth : Nat) (x : UInt32) : (Value.ofNat x.toNat).IsNeat IsKey depth :=
    .word (x.toNat_lt.trans (by decide))
  have turn : (turnValue s.turn).IsNeat IsKey (depth + 2) := isNeat_record hturn (by
    simp only [List.forall_mem_cons]
    exact ⟨word64 _ _, .text _, word64 _ _, word64 _ _, List.forall_mem_nil _⟩)
  have topics : (topicsValue s.topics).IsNeat IsKey (depth + 2) := isNeat_record htopics (by
    simp only [List.forall_mem_cons]
    exact ⟨.text _, hdict .overrides, List.forall_mem_nil _⟩)
  have retry : (retryValue s.bus.retry).IsNeat IsKey (depth + 1) := isNeat_record hretry (by
    simp only [List.forall_mem_cons]
    exact ⟨word32 _ _, word64 _ _, word64 _ _, List.forall_mem_nil _⟩)
  have bus : (busValue s.bus).IsNeat IsKey (depth + 2) := isNeat_record hbus (by
    simp only [List.forall_mem_cons]
    exact ⟨.text _, .text _, word64 _ _, retry, List.forall_mem_nil _⟩)
  have responses : (responsesValue s.responses).IsNeat IsKey (depth + 2) :=
    isNeat_record hresponses (by
      simp only [List.forall_mem_cons]
      exact ⟨hdict .templates, .text _, .text _, List.forall_mem_nil _⟩)
  have tap : (tapValue s.tap).IsNeat IsKey (depth + 2) := isNeat_record htap (by
    simp only [List.forall_mem_cons]
    exact ⟨.flag _, word64 _ _, List.forall_mem_nil _⟩)
  have log : (logValue s.log).IsNeat IsKey (depth + 2) := isNeat_record hlog (by
    simp only [List.forall_mem_cons]
    exact ⟨.text _, .flag _, List.forall_mem_nil _⟩)
  refine isNeat_record hroot ?_
  simp only [List.forall_mem_cons]
  exact ⟨turn, topics, bus, responses, tap, log, List.forall_mem_nil _⟩

/-! ## Reading a document -/

lemma exists_follow_tree {v w w' : Value} (h : v.IsWritingOf w) {names : List String}
    (hw : follow Value.member? (some w) names = some w') :
    ∃ v' : Value, follow Tree.member? (some v.tree) names = some v'.tree ∧ v'.IsWritingOf w' := by
  induction names generalizing v w with
  | nil =>
    obtain rfl := Option.some.inj hw
    exact ⟨v, rfl, h⟩
  | cons name names ih =>
    obtain ⟨m, hm, hrest⟩ := (follow_cons_eq_some_iff Value.member?).1 hw
    obtain ⟨v₁, hv₁, h₁⟩ := h.exists_member? hm
    obtain ⟨v', hv', h'⟩ := ih h₁ hrest
    exact ⟨v', (follow_cons_eq_some_iff Tree.member?).2 ⟨v₁.tree, hv₁, hv'⟩, h'⟩

lemma Kind.write_ne_object (k : Kind) (x : k.Value)
    (ms : List (String × Json.Value)) :
    k.write x ≠ .object ms := by
  cases k <;> nofun

/-- Each `Kind` reads what it writes. -/
lemma Kind.read_document_write (k : Kind) (x : k.Value) :
    k.read .document (k.write x).tree = some x := by
  cases k with
  | word64 =>
    have hread := Tree.natBelow?_tree_ofNat (UInt64.toNat_lt x) (Nat.le_refl _)
    exact (congrArg (Option.map UInt64.ofNat) hread).trans (congrArg some UInt64.ofNat_toNat)
  | word32 =>
    have hread := Tree.natBelow?_tree_ofNat (UInt32.toNat_lt x) (by decide)
    exact (congrArg (Option.map UInt32.ofNat) hread).trans (congrArg some UInt32.ofNat_toNat)
  | flag => rfl
  | text => rfl
  | qos => cases x <;> rfl
  | secondWake => cases x <;> rfl

/-- Settings are read from what `IsWritingOf` them. -/
lemma ofText?_of_isWritingOf {s : Settings} {v : Value} (h : v.IsWritingOf s.toValue) :
    ofText? v.text = some s := by
  have hrecords : ∀ e ∈ sectionFields,
      IsRecord .document Tree.member? e.2 (follow Tree.member? (some v.tree) e.1) := by
    intro e he u hu
    obtain ⟨ms, hms⟩ := exists_follow_toValue_section s he
    obtain ⟨v', hv', h'⟩ := exists_follow_tree h hms
    obtain rfl : u = v'.tree := Option.some.inj (hu.symm.trans hv')
    exact h'.fields?_tree e.2
  rw [ofText?, h.isLegible.read?_text]
  refine (read?_eq_some_iff hrecords).2 ⟨fun leaf => ?_, fun book => ?_⟩
  · obtain ⟨v', hv', h'⟩ := exists_follow_tree h (follow_toValue_leaf s leaf)
    obtain rfl := h'.eq_of_ne_object (leaf.kind.write_ne_object _)
    rw [hv']
    exact leaf.kind.read_document_write _
  · obtain ⟨v', hv', h'⟩ := exists_follow_tree h (follow_toValue_book s book)
    rw [hv']
    exact h'.dict?_tree

end VoiceTurn.Settings
