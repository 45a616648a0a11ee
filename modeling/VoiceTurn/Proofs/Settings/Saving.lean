import Mathlib.Algebra.Group.Nat.Defs
import VoiceTurn.Proofs.Settings.Documents
import VoiceTurn.Proofs.Settings.Layering

/-!
# Saving settings

A file in which settings have been written is a layer that mentions every leaf with its value and
every name of a book with its text (`mention?_ofText`), as long as all names are in lowercase. So
the settings are loaded from it as they were (`saved_settings_are_loaded`), if their numbers fit
signed words: greater ones are read as doubles.
-/

namespace VoiceTurn.Settings

open Json (Value)

def Kind.FitsSigned : (k : Kind) → k.Value → Prop
  | .word64, x => UInt64.toNat x < 2 ^ 63
  | _, _ => True

instance : (k : Kind) → (x : k.Value) → Decidable (k.FitsSigned x)
  | .word64, x => inferInstanceAs (Decidable (UInt64.toNat x < 2 ^ 63))
  | .word32, _ | .flag, _ | .text, _ | .qos, _ | .secondWake, _ => inferInstanceAs (Decidable True)

namespace Node

/-- A name is its own `lowercase` form. -/
abbrev IsLower (name : String) : Prop := lowercase name = name

lemma ofValue_ofNat {n : Nat} (h : n < 2 ^ 63) : ofValue (.ofNat n) = .int n := by
  have hfits : Decimal.FitsSigned n := by
    have hhalf : Decimal.halfWord = 2 ^ 63 := by decide
    rw [Decimal.FitsSigned, hhalf]
    omega
  rw [Value.ofNat, ofValue, if_pos hfits]

lemma word?_int {bound n : Nat} (h : n < bound) : (Node.int n).word? bound = some n := by
  rw [word?, word64?, if_pos (Int.natCast_nonneg n), Option.bind_some, Int.toNat_natCast, if_pos h]

/-- What `Kind.write` gives is read from its node. -/
lemma read_source_write (k : Kind) (x : k.Value) (h : k.FitsSigned x) :
    k.read source (ofValue (k.write x)) = some x := by
  cases k with
  | word64 =>
    have hread := word?_int (UInt64.toNat_lt x)
    rw [Kind.write, ofValue_ofNat h]
    exact (congrArg (Option.map UInt64.ofNat) hread).trans (congrArg some UInt64.ofNat_toNat)
  | word32 =>
    have hread := word?_int (UInt32.toNat_lt x)
    rw [Kind.write, ofValue_ofNat ((UInt32.toNat_lt x).trans (by decide))]
    exact (congrArg (Option.map UInt32.ofNat) hread).trans (congrArg some UInt32.ofNat_toNat)
  | flag => rfl
  | text => rfl
  | qos =>
    have hread : ∀ q ∈ Bus.Qos.all, Source.qos? source (.text q.name) = some q := by
      decide +kernel
    exact hread x (by cases x <;> decide)
  | secondWake =>
    have hread : ∀ w ∈ SecondWake.all, Source.secondWake? source (.text w.name) = some w := by
      decide +kernel
    exact hread x (by cases x <;> decide)

lemma ofMembers_eq_map (ms : List (String × Value)) :
    ofMembers ms = ms.map fun m => (m.1, ofValue m.2) := by
  induction ms with
  | nil => rfl
  | cons m ms ih =>
    rw [ofMembers, ih]
    rfl

lemma entries_ofValue_ofNat (n : Nat) : (ofValue (.ofNat n)).entries = [] := by
  rw [Value.ofNat, ofValue]
  split_ifs <;> rfl

/-- An object with keys that are `IsLower` puts at a path what the member of the first name puts at
the rest. -/
lemma nodesAt_ofMembers {ms : List (String × Value)} (hnodup : (ms.map Prod.fst).Nodup)
    (hlower : ∀ m ∈ ms, IsLower m.1) (name : String) (names : List String) :
    (Node.table (ofMembers ms)).nodesAt (name :: names) =
      ((ms.lookup name).map fun v => (ofValue v).nodesAt names).getD [] := by
  induction ms with
  | nil => rfl
  | cons m ms ih =>
    obtain ⟨key, v⟩ := m
    obtain ⟨hkey, hms⟩ := List.forall_mem_cons.1 hlower
    obtain ⟨hmem, hrest⟩ := List.nodup_cons.1 hnodup
    rw [ofMembers, nodesAt_table_cons, ih hrest hms, Dict.lookup_cons_eq_ite, hkey]
    dsimp only
    by_cases hname : name = key
    · subst hname
      rw [Dict.lookup_eq_none_of_not_mem hmem, if_pos rfl, if_pos rfl]
      exact List.append_nil _
    · rw [if_neg hname, if_neg (Ne.symm hname)]
      rfl

/-- A document with keys that are `IsLower` puts at a path what it has there. -/
lemma nodesAt_ofValue {w : Value} {depth : Nat} (h : w.IsNeat IsLower depth)
    (names : List String) : (ofValue w).nodesAt names =
      ((follow Value.member? (some w) names).map ofValue).toList := by
  induction names generalizing w depth with
  | nil => rfl
  | cons name names ih =>
    -- what is no object has neither entries nor members
    have hatom (hentries : (ofValue w).entries = []) (hmember : w.member? name = none) :
        (ofValue w).nodesAt (name :: names) =
          ((follow Value.member? (some w) (name :: names)).map ofValue).toList := by
      rw [nodesAt, hentries, follow, Option.bind_some, hmember, follow_none]
      rfl
    cases h with
    | flag b => exact hatom rfl rfl
    | text s => exact hatom rfl rfl
    | word _ => exact hatom (entries_ofValue_ofNat _) rfl
    | @object depth ms hsorted hkeys hmembers =>
      rw [ofValue, nodesAt_ofMembers (Dict.nodup_of_sorted hsorted) hkeys, follow]
      have hmember : (some (Value.object ms)).bind (Value.member? · name) = ms.lookup name := rfl
      rw [hmember]
      cases hlookup : ms.lookup name with
      | none =>
        rw [follow_none]
        rfl
      | some v =>
        have hv := (Dict.lookup_eq_some_iff_mem (Dict.nodup_of_sorted hsorted)).1 hlookup
        exact ih (hmembers _ hv)

lemma fitsAt_ofValue {w w' : Value} {depth : Nat} (h : w.IsNeat IsLower depth)
    {names names' : List String} (hw : follow Value.member? (some w) names = some w')
    (hfits : (ofValue w').FitsAt names') : (ofValue w).FitsAt (names ++ names') := by
  induction names generalizing w depth with
  | nil =>
    obtain rfl := Option.some.inj hw
    exact hfits
  | cons name names ih =>
    obtain ⟨m, hm, hrest⟩ := (follow_cons_eq_some_iff Value.member?).1 hw
    cases h with
    | flag b => cases hm
    | text s => cases hm
    | word _ => cases hm
    | @object depth ms hsorted hkeys hmembers =>
      rw [ofValue]
      refine ⟨⟨_, rfl⟩, fun e he hname => ?_⟩
      rw [entries, ofMembers_eq_map] at he
      obtain ⟨⟨key, v⟩, hv, rfl⟩ := List.mem_map.1 he
      obtain rfl : key = name := (hkeys _ hv).symm.trans hname
      have hlookup := (Dict.lookup_eq_some_iff_mem (Dict.nodup_of_sorted hsorted)).2 hv
      -- no two members have the name, so this is the one that the path goes through
      obtain rfl : v = m := Option.some.inj (hlookup.symm.trans hm)
      exact ih (hmembers _ hv) hrest

lemma fitsAt_ofValue_write (k : Kind) (x : k.Value) : (ofValue (k.write x)).FitsAt [] := by
  rintro ⟨es, h⟩
  cases k with
  | word64 | word32 =>
    rw [Kind.write, Value.ofNat, ofValue] at h
    split_ifs at h
  | flag | text | qos | secondWake => cases h

lemma fitsAt_ofValue_dictValue (d : Dict String) (name : String) :
    (ofValue (dictValue d)).FitsAt [name] := by
  rw [dictValue, ofValue, ofMembers_eq_map, List.map_map]
  refine ⟨⟨_, rfl⟩, fun e he _ => ?_⟩
  obtain ⟨e', -, rfl⟩ := List.mem_map.1 he
  rintro ⟨es, h⟩
  cases h

end Node

/-- The layers of one file of defaults, among other variables. -/
def Layers.ofText (text : String) (others : List (String × String)) : Layers where
  defaults := some ⟨.json, Utf8.encode text⟩
  assignments := others

section
variable {text : List Char} {ms : List (String × Value)} {others : List (String × String)}
  (hothers : ∀ a ∈ others, variableEntry? a = none)

lemma fileEntries?_ofText (h : Value.read? text = some (.object ms)) :
    fileEntries? (Layers.ofText (String.ofList text) others).defaults =
      some (Node.ofMembers ms) := by
  show SettingsFile.entries? _ = _
  rw [SettingsFile.entries?, Utf8.decode?_encode]
  dsimp only
  rw [String.toList_ofList, h]
  rfl

/-- Keys without points and brackets are entered as they are. -/
lemma treeOf_ofMembers (hpaths : ∀ m ∈ ms, Node.path m.1 = [.key m.1]) :
    Node.treeOf (Node.ofMembers ms) = Node.ofValue (.object ms) := by
  have hnest : ∀ m ∈ ms, (Node.nest (Node.path m.1) (Node.ofValue m.2)).entries =
      [(m.1, Node.ofValue m.2)] := by
    intro m hm
    rw [hpaths m hm]
    rfl
  rw [Node.ofValue, Node.treeOf, Node.ofMembers_eq_map, List.flatMap_map,
    List.flatMap_congr hnest, ← List.map_eq_flatMap]

lemma exists_gather?_ofText (h : Value.read? text = some (.object ms)) :
    ∃ n, gather? (Layers.ofText (String.ofList text) others) = some n := by
  rw [gather?, fileEntries?_ofText h]
  exact ⟨_, rfl⟩

include hothers

lemma trees_ofText (h : Value.read? text = some (.object ms))
    (hpaths : ∀ m ∈ ms, Node.path m.1 = [.key m.1]) :
    (Layers.ofText (String.ofList text) others).trees =
      [.table [], .table [], Node.ofValue (.object ms)] := by
  have hassigned : (Layers.ofText (String.ofList text) others).assignments.filterMap
      variableEntry? = [] := List.filterMap_eq_nil_iff.2 hothers
  rw [Layers.trees, hassigned, fileEntries?_ofText h, Option.getD_some, treeOf_ofMembers hpaths]
  rfl

/-- In layers of one file `mention?` is what the document in it has. -/
lemma mention?_ofText {depth : Nat} (h : Value.read? text = some (.object ms))
    (hpaths : ∀ m ∈ ms, Node.path m.1 = [.key m.1])
    (hneat : (Value.object ms).IsNeat Node.IsLower depth) (p : Place) :
    (Layers.ofText (String.ofList text) others).mention? p.path =
      (follow Value.member? (some (.object ms)) p.path).map Node.ofValue := by
  have hlast : ((Node.ofValue (.object ms)).nodesAt p.path).getLast? =
      (follow Value.member? (some (.object ms)) p.path).map Node.ofValue := by
    rw [Node.nodesAt_ofValue hneat]
    cases follow Value.member? (some (.object ms)) p.path <;> rfl
  obtain ⟨name, names, hp⟩ := p.exists_path_eq
  have hbare : (Node.table []).nodesAt (name :: names) = [] := rfl
  rw [Layers.mention?, trees_ofText hothers h hpaths, ← hlast, hp]
  simp only [Node.findSome?_cons_eq_or, hbare, List.getLast?_nil, Option.none_or,
    List.findSome?_nil, Option.or_none]

end

lemma exists_toValue_eq (s : Settings) :
    ∃ ms, s.toValue = .object ms ∧ ∀ m ∈ ms, Node.path m.1 = [.key m.1] := by
  have hpaths : ∀ name ∈ sections, Node.path name = [.key name] := by decide +kernel
  refine ⟨_, Value.ofMembers_eq _, fun m hm => ?_⟩
  exact hpaths m.1 (List.of_mem_zip (Dict.mem_ofList hm)).1

/-- The names in each `Book` are written in lowercase: those of the overrides are names of slots,
and those of the templates have to be. -/
lemma isLower_of_mem_entries {s : Settings} (hvalid : s.validate = .ok ())
    (hnames : ∀ e ∈ s.responses.templates.entries, lowercase e.1 = e.1) (book : Book) :
    ∀ e ∈ (book.entries s).entries, Node.IsLower e.1 := by
  cases book with
  | templates => exact hnames
  | overrides =>
    intro e he
    obtain ⟨⟨r, hregistry, -⟩, -⟩ := validate_spec hvalid
    have hknown := TopicSettings.forall_known_of_registry hregistry e he
    have hslots : ∀ slot ∈ Topic.Slot.all, Node.IsLower slot.name := by decide +kernel
    obtain ⟨slot, hslot⟩ := Option.isSome_iff_exists.1 (Option.isNone_eq_false_iff.1 hknown)
    rw [← Topic.Slot.ofName?_eq_some_iff.1 hslot]
    exact hslots slot slot.mem_all

/-- A file of settings has tables where settings have sections and books, and nowhere else
(`Fits`). -/
lemma fits_ofText {s : Settings} {v : Value} {depth : Nat}
    {others : List (String × String)} (hothers : ∀ a ∈ others, variableEntry? a = none)
    (hread : Value.read? v.text = some s.toValue) (hneat : s.toValue.IsNeat Node.IsLower depth) :
    (Layers.ofText v.render others).Fits := by
  obtain ⟨ms, hms, hpaths⟩ := s.exists_toValue_eq
  have htrees := trees_ofText hothers (hms ▸ hread) hpaths
  intro t ht p
  rw [Value.render, htrees, ← hms] at ht
  have hbare : (Node.table []).FitsAt p.path := by
    obtain ⟨name, names, hp⟩ := p.exists_path_eq
    rw [hp]
    exact ⟨⟨_, rfl⟩, List.forall_mem_nil _⟩
  simp only [List.mem_cons, List.not_mem_nil, or_false] at ht
  rcases ht with rfl | rfl | rfl
  · exact hbare
  · exact hbare
  · cases p with
    | leaf leaf =>
      have hfits := Node.fitsAt_ofValue hneat (s.follow_toValue_leaf leaf)
        (Node.fitsAt_ofValue_write _ _)
      rwa [List.append_nil] at hfits
    | entry book name =>
      exact Node.fitsAt_ofValue hneat (s.follow_toValue_book book)
        (Node.fitsAt_ofValue_dictValue _ name)

/-- Valid settings whose numbers fit signed words and whose templates have names in lowercase are
loaded from what `IsWritingOf` them, and read from it as a document. -/
theorem saved_settings_are_loaded {s : Settings} {v : Value} (hvalid : s.validate = .ok ())
    (hsigned : ∀ leaf : Leaf, leaf.kind.FitsSigned (leaf.value s))
    (hnames : ∀ e ∈ s.responses.templates.entries, lowercase e.1 = e.1)
    (hwriting : v.IsWritingOf s.toValue) {others : List (String × String)}
    (hothers : ∀ a ∈ others, variableEntry? a = none) :
    load (.ofText v.render others) = .ok s ∧ ofText? v.text = some s := by
  refine ⟨?_, ofText?_of_isWritingOf hwriting⟩
  -- in lowercase, so merging the file as a layer does not change any name
  have hlower : ∀ e ∈ sectionFields, ∀ name ∈ e.2, Node.IsLower name := by decide +kernel
  have hneat : s.toValue.IsNeat Node.IsLower Value.maxDepth :=
    isNeat_toValue 124 hlower (isLower_of_mem_entries hvalid hnames)
  have hread : Value.read? v.text = some s.toValue := hwriting.read?_text hneat
  obtain ⟨ms, hms, hpaths⟩ := s.exists_toValue_eq
  obtain ⟨n, hgather⟩ := exists_gather?_ofText (hms ▸ hread)
  have hmention (p : Place) : (Layers.ofText v.render others).mention? p.path =
      (follow Value.member? (some s.toValue) p.path).map Node.ofValue :=
    hms ▸ mention?_ofText hothers (hms ▸ hread) hpaths (hms ▸ hneat) p
  have hfits : (Layers.ofText v.render others).Fits := fits_ofText hothers hread hneat
  refine load_eq_ok_iff.2 ⟨⟨n, hgather, (read?_gathered_iff hfits hgather).2
    ⟨fun leaf => ?_, fun book name => ?_⟩⟩, hvalid⟩
  · have hleaf : (Layers.ofText v.render others).mention? leaf.path =
        some (Node.ofValue (leaf.kind.write (leaf.value s))) :=
      (hmention (.leaf leaf)).trans
        (congrArg (Option.map Node.ofValue) (s.follow_toValue_leaf leaf))
    rw [hleaf]
    exact Node.read_source_write _ _ (hsigned leaf)
  · have hmember : follow Value.member? (some s.toValue) (book.path ++ [name]) =
        ((book.entries s).get? name).map Value.string := by
      rw [follow_append, follow_toValue_book]
      exact Dict.lookup_map Value.string (book.entries s).entries
    have hentry : (Layers.ofText v.render others).mention? (book.path ++ [name]) =
        (((book.entries s).get? name).map Value.string).map Node.ofValue :=
      (hmention (.entry book name)).trans (congrArg (Option.map Node.ofValue) hmember)
    rw [hentry]
    cases (book.entries s).get? name <;> rfl

/-- The greatest number of a signed word, an override and a template survive. -/
theorem saved_settings_are_loaded_with_template :
    let s : Settings := {
      turn := { stallTimeout := 9223372036854775807, secondWake := .interrupt }
      topics := { overrides := .ofList [("say_text", "house/say")] }
      responses := { templates := .ofList [("set light", "Say \"on\"")] } }
    load (.ofText s.toValue.render [("HOME", "/root")]) = .ok s ∧
      ofText? s.toValue.text = some s := by
  intro s
  have hwriting : s.toValue.IsWritingOf s.toValue := by
    have hneat : s.toValue.IsNeat (fun _ => True) 3 :=
      isNeat_toValue 0 (fun _ _ _ _ => trivial) fun _ _ _ => trivial
    exact hneat.isWritingOf
  refine saved_settings_are_loaded (by decide +kernel) (fun leaf => ?_) (by decide +kernel)
    hwriting ?_
  · cases leaf <;> decide +kernel
  · intro a ha
    obtain rfl := List.mem_singleton.1 ha
    have hname : ¬ variableStart.isPrefixOf (lowercase "HOME").toList := by decide +kernel
    unfold variableEntry?
    exact if_neg hname

end VoiceTurn.Settings
