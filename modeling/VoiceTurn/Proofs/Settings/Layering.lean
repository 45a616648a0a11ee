import VoiceTurn.Proofs.Settings.Merging
import VoiceTurn.Proofs.Settings.Validity
import VoiceTurn.Settings.Load

/-!
# Layers of settings

What a layer says about a setting can be read off its tree. When every layer has tables where the
settings have sections and books, and nowhere else along their paths (`Layers.Fits`), each setting
comes from the highest layer that mentions it (`Layers.mention?`), or else has its stock value. A
change in one layer reaches no settings but those that it mentions.
-/

namespace VoiceTurn.Settings

open Source (field?)

lemma load_eq_ok_iff {l : Layers} {s : Settings} :
    load l = .ok s ↔
      (∃ n, gather? l = some n ∧ read? Node.source n = some s) ∧ s.validate = .ok () := by
  rw [← Option.bind_eq_some_iff, load]
  cases (gather? l).bind (read? Node.source) with
  | none => exact ⟨nofun, nofun⟩
  | some s' =>
    dsimp only
    constructor
    · intro h
      split at h
      · rename_i hcheck
        cases h
        exact ⟨rfl, hcheck⟩
      · cases h
    · rintro ⟨heq, hcheck⟩
      obtain rfl := Option.some.inj heq
      rw [hcheck]

lemma exists_of_isOk {ε α : Type} {x : Except ε α} (h : x.isOk) : ∃ a, x = .ok a := by
  cases x with
  | error e => cases h
  | ok a => exact ⟨a, rfl⟩

/-! ## Places -/

/-- The places of texts, words and flags: each `Leaf`, and the names in each `Book`. -/
inductive Place where
  | leaf (leaf : Leaf)
  | entry (book : Book) (name : String)

def Place.path : Place → List String
  | leaf l => l.path
  | entry b name => b.path ++ [name]

lemma Place.exists_path_eq (p : Place) : ∃ name names, p.path = name :: names := by
  cases p with
  | leaf l => cases l <;> exact ⟨_, _, rfl⟩
  | entry b name => cases b <;> exact ⟨_, _, rfl⟩

namespace Layers

/-- The trees of the layers, the highest first: variables, the file for the environment, and the
file of defaults. -/
def trees (l : Layers) : List Node :=
  [Node.treeOf (l.assignments.filterMap variableEntry?),
    Node.treeOf ((fileEntries? l.environment).getD []),
    Node.treeOf ((fileEntries? l.defaults).getD [])]

/-- What the highest layer that mentions a place has there. -/
def mention? (l : Layers) (names : List String) : Option Node :=
  l.trees.findSome? fun t => (t.nodesAt names).getLast?

/-- Every layer has tables where the settings have sections and books, and none at a `Place`. Keys
that lead to no place do not matter. -/
def Fits (l : Layers) : Prop := ∀ t ∈ l.trees, ∀ p : Place, t.FitsAt p.path

lemma fits_iff {l : Layers} : l.Fits ↔ ∀ t ∈ l.trees,
    (∀ leaf ∈ Leaf.all, t.FitsAt leaf.path) ∧ ∀ book ∈ Book.all, t.HoldsAt book.path := by
  refine forall₂_congr fun t _ => ⟨fun h => ⟨fun leaf _ => h (.leaf leaf), fun book _ => ?_⟩, ?_⟩
  · exact Node.holdsAt_iff.2 fun name => h (.entry book name)
  · rintro ⟨hleaves, hbooks⟩ (leaf | ⟨book, name⟩)
    · exact hleaves leaf leaf.mem_all
    · exact Node.holdsAt_iff.1 (hbooks book book.mem_all) name

instance (l : Layers) : Decidable l.Fits := decidable_of_iff _ fits_iff.symm

end Layers

/-! ## Gathering -/

namespace Node

lemma read_list (k : Kind) (ms ns : List Node) :
    k.read source (.list ms) = k.read source (.list ns) := by
  cases k <;> rfl

lemma findSome?_cons_eq_or {α β : Type} (f : α → Option β) (a : α) (as : List α) :
    (a :: as).findSome? f = (f a).or (as.findSome? f) := by
  rw [List.findSome?_cons]
  cases f a <;> rfl

/-- What `gather?` gives has at a place what `mention?` says. -/
lemma follow_gathered {β : Type} {f : Node → β} (hf : ∀ ms ns, f (.list ms) = f (.list ns))
    {l : Layers} {n : Node} (hfits : l.Fits) (hgather : gather? l = some n) (p : Place) :
    (follow get? (some n) p.path).map f = (l.mention? p.path).map f ∧ n.TidyAt p.path := by
  obtain ⟨defaults, hdefaults, hrest⟩ := Option.bind_eq_some_iff.1 hgather
  obtain ⟨environment, henvironment, hn⟩ := Option.bind_eq_some_iff.1 hrest
  cases hn
  have htrees : l.trees = [treeOf (l.assignments.filterMap variableEntry?), treeOf environment,
      treeOf defaults] := by
    rw [Layers.trees, hdefaults, henvironment]
    rfl
  have hplace := fun t ht => hfits t ht p
  rw [Layers.mention?]
  rw [htrees] at hplace ⊢
  simp only [List.forall_mem_cons] at hplace
  obtain ⟨hassigned, henv, hdef, -⟩ := hplace
  obtain ⟨name, names, hpath⟩ := p.exists_path_eq
  rw [hpath] at hassigned henv hdef ⊢
  -- the layers are laid over an empty table one after the other, the lowest first
  obtain ⟨hfollow₁, htidy₁⟩ := overlays_overlay (n := .table []) hf hdef
  obtain ⟨hfollow₂, htidy₂⟩ :=
    overlays_overlay (n := (Node.table []).overlay defaults) hf henv
  obtain ⟨hfollow₃, htidy₃⟩ :=
    overlays_overlay (n := ((Node.table []).overlay defaults).overlay environment) hf hassigned
  have hbare : follow get? (some (.table [])) (name :: names) = none := follow_none get? names
  constructor
  · simp only [findSome?_cons_eq_or, List.findSome?_nil, Option.map_or, hfollow₃, hfollow₂,
      hfollow₁, hbare]
  · exact htidy₃ fun _ h₃ => Option.some.inj h₃ ▸ htidy₂ fun _ h₂ => Option.some.inj h₂ ▸
      htidy₁ fun _ h₁ => Option.some.inj h₁ ▸ tidyAt_bare (name :: names)

lemma tidyAt_of_follow {n u : Node} {names names' : List String} (h : n.TidyAt (names ++ names'))
    (hu : follow get? (some n) names = some u) : u.TidyAt names' := by
  induction names generalizing n with
  | nil =>
    obtain rfl := Option.some.inj hu
    exact h
  | cons name names ih =>
    obtain ⟨m, hm, hrest⟩ := (follow_cons_eq_some_iff get?).1 hu
    exact ih (h.2.2 m hm) hrest

lemma isRecord_of_tidyAt {n : Node} {names fields rest : List String} {name : String}
    (h : n.TidyAt (names ++ name :: rest)) :
    IsRecord source get? fields (follow get? (some n) names) := by
  intro u hu
  obtain ⟨⟨es, rfl⟩, -⟩ := tidyAt_of_follow h hu
  rfl

/-! ## Texts of a book -/

lemma mapM_text?_eq_some_iff {es : List (String × Node)} {texts : List (String × String)} :
    es.mapM (fun (k, n) => n.text?.map (k, ·)) = some texts ↔
      es.map (fun e => (e.1, e.2.text?)) = texts.map fun e => (e.1, some e.2) := by
  induction es generalizing texts with
  | nil => cases texts <;> simp
  | cons e es ih =>
    obtain ⟨key, value⟩ := e
    rw [List.mapM_cons]
    constructor
    · intro h
      obtain ⟨e', he', h⟩ := Option.bind_eq_some_iff.1 h
      obtain ⟨text, htext, rfl⟩ := Option.map_eq_some_iff.1 he'
      obtain ⟨rest, hrest, h⟩ := Option.bind_eq_some_iff.1 h
      obtain rfl := Option.some.inj h
      rw [List.map_cons, List.map_cons, ih.1 hrest]
      exact congrArg (fun text? => (key, text?) :: _) htext
    · intro h
      cases texts with
      | nil => cases h
      | cons text texts =>
        obtain ⟨hhead, hrest⟩ := List.cons.inj h
        obtain ⟨rfl, htext⟩ := Prod.mk.inj hhead
        dsimp only at htext ⊢
        rw [htext, ih.2 hrest]
        rfl

/-- A sorted table is read as the `Dict` that has for each name the text of its entry. -/
lemma dict?_table_eq_some_iff {es : List (String × Node)}
    (h : es.Pairwise fun a b => a.1 < b.1) {d : Dict String} :
    (Node.table es).dict? = some d ↔
      ∀ name, (es.lookup name).map text? = (d.get? name).map some := by
  have hread : (Node.table es).dict? = some d ↔
      ∃ texts, es.mapM (fun (k, n) => n.text?.map (k, ·)) = some texts ∧ .ofList texts = d := by
    simp only [dict?, Option.bind_eq_bind, Option.bind_eq_some_iff, Option.some.injEq]
  rw [hread]
  constructor
  · rintro ⟨texts, htexts, rfl⟩ name
    have hmap := mapM_text?_eq_some_iff.1 htexts
    have hkeys : es.map Prod.fst = texts.map Prod.fst := by
      simpa [Function.comp_def] using congrArg (List.map Prod.fst) hmap
    rw [Dict.get?_ofList (hkeys ▸ Dict.nodup_of_sorted h), ← Dict.lookup_map, hmap,
      Dict.lookup_map]
  · intro hlookup
    refine ⟨d.entries, mapM_text?_eq_some_iff.2 ?_, Dict.ofList_eq_of_perm (.refl _)⟩
    -- both lists are sorted, so it is enough that they have the same for every name
    refine Dict.eq_of_lookup_eq (List.pairwise_map.2 h) (List.pairwise_map.2 d.sorted) ?_
    intro name
    rw [Dict.lookup_map, Dict.lookup_map]
    exact hlookup name

lemma field?_dict?_eq_some_iff {t : Option Node} {name : String}
    (h : ∀ u, t = some u → u.TidyAt [name]) {d : Dict String} :
    field? .empty source.dict? t = some d ↔
      ∀ name, (t.bind (get? · name)).map text? = (d.get? name).map some := by
  cases t with
  | none =>
    constructor
    · intro hd name
      cases hd
      rfl
    · intro hd
      refine congrArg some (Dict.ext_get? fun name => ?_)
      exact (Option.map_eq_none_iff.1 (hd name).symm).symm
  | some u =>
    obtain ⟨⟨es, rfl⟩, hsorted, -⟩ := h u rfl
    exact dict?_table_eq_some_iff hsorted

end Node

/-! ## Reading gathered layers -/

lemma field?_congr {α τ : Type} {default : α} {reader : τ → Option α} {t t' : Option τ}
    (h : t.map reader = t'.map reader) : field? default reader t = field? default reader t' := by
  cases t <;> cases t' <;> simp_all [field?]

/-- Every section is on the way to a `Place`. -/
lemma exists_place_of_section {e : List String × List String} (h : e ∈ sectionFields) :
    ∃ (p : Place) (name : String) (rest : List String), p.path = e.1 ++ name :: rest := by
  revert e
  simp only [sectionFields, List.forall_mem_cons]
  exact ⟨⟨.leaf .stallTimeout, _, _, rfl⟩, ⟨.leaf .stallTimeout, _, _, rfl⟩,
    ⟨.leaf .root, _, _, rfl⟩, ⟨.leaf .maxLine, _, _, rfl⟩, ⟨.leaf .attempts, _, _, rfl⟩,
    ⟨.leaf .general, _, _, rfl⟩, ⟨.leaf .enabled, _, _, rfl⟩, ⟨.leaf .level, _, _, rfl⟩,
    List.forall_mem_nil _⟩

/-- Settings are read from gathered layers when each `Leaf` has the value that `mention?` gives, or
its stock value, and each `Book` has the texts that `mention?` gives for its names. -/
lemma read?_gathered_iff {l : Layers} {n : Node} {s : Settings} (hfits : l.Fits)
    (hgather : gather? l = some n) :
    read? Node.source n = some s ↔
      (∀ leaf : Leaf, field? (leaf.value .stock) (leaf.kind.read Node.source)
        (l.mention? leaf.path) = some (leaf.value s)) ∧
      ∀ (book : Book) (name : String), (l.mention? (book.path ++ [name])).map Node.text? =
        ((book.entries s).get? name).map some := by
  have htidy (p : Place) : n.TidyAt p.path :=
    (Node.follow_gathered (f := Node.text?) (fun _ _ => rfl) hfits hgather p).2
  rw [read?_eq_some_iff fun e he => by
    obtain ⟨p, name, rest, hp⟩ := exists_place_of_section he
    exact Node.isRecord_of_tidyAt (hp ▸ htidy p)]
  refine and_congr (forall_congr' fun leaf => ?_) (forall_congr' fun book => ?_)
  · have hleaf := (Node.follow_gathered (Node.read_list leaf.kind) hfits hgather (.leaf leaf)).1
    exact Eq.congr_left (field?_congr hleaf)
  · have hbook : ∀ u, follow Node.get? (some n) book.path = some u → u.TidyAt [""] :=
      fun u hu => Node.tidyAt_of_follow (htidy (.entry book "")) hu
    rw [Node.field?_dict?_eq_some_iff hbook]
    refine forall_congr' fun name => ?_
    have hentry := (Node.follow_gathered (f := Node.text?) (fun _ _ => rfl) hfits hgather
      (.entry book name)).1
    rw [Place.path, follow_append] at hentry
    exact hentry ▸ Iff.rfl

/-! ## Changes -/

namespace Node

/-- The tree puts some node at a place. -/
def Mentions (n : Node) (names : List String) : Prop := n.nodesAt names ≠ []

/-- A tree becomes another one when a value at the end of a path of keys is changed into `new`, or
when an entry with `new` is added there. -/
inductive Changes (old : Option Node) (new : Node) : List String → Node → Node → Prop
  | value {n : Node} (h : old = some n) : Changes old new [] n new
  | entry {key : String} {es es' : List (String × Node)} (h : old = none) :
      Changes old new [lowercase key] (.table (es ++ es')) (.table (es ++ (key, new) :: es'))
  | inside {key : String} {n n' : Node} {names : List String} {es es' : List (String × Node)}
      (h : Changes old new names n n') :
      Changes old new (lowercase key :: names) (.table (es ++ (key, n) :: es'))
        (.table (es ++ (key, n') :: es'))

/-- The places that a change reaches: those below its path that the old value or the new one
`Mentions`. -/
def Reaches (old : Option Node) (new : Node) (changed names : List String) : Prop :=
  ∃ rest, names = changed ++ rest ∧ ((∃ n, old = some n ∧ n.Mentions rest) ∨ new.Mentions rest)

/-- A change leaves `nodesAt` a place that it does not reach as they were. -/
lemma Changes.nodesAt_eq {old : Option Node} {new t t' : Node} {changed names : List String}
    (h : Changes old new changed t t') (hfits : t.FitsAt names)
    (hreach : ¬ Reaches old new changed names) : t'.nodesAt names = t.nodesAt names := by
  induction h generalizing names with
  | @value n hold =>
    have hn : ¬ n.Mentions names := fun hn => hreach ⟨names, rfl, .inl ⟨n, hold, hn⟩⟩
    have hnew : ¬ new.Mentions names := fun hnew => hreach ⟨names, rfl, .inr hnew⟩
    exact (not_not.1 hnew).trans (not_not.1 hn).symm
  | @entry key es es' _ =>
    cases names with
    | nil => exact absurd ⟨_, rfl⟩ hfits
    | cons name names =>
      -- the new entry puts nothing at the place, or the change would reach it
      have hnew : (if lowercase key = name then new.nodesAt names else []) = [] := by
        split_ifs with hname
        · subst hname
          exact not_not.1 fun hnew => hreach ⟨names, rfl, .inr hnew⟩
        · rfl
      rw [nodesAt_append, nodesAt_append, nodesAt_table_cons, hnew, List.nil_append]
  | @inside key n n' changed es es' _ ih =>
    cases names with
    | nil => exact absurd ⟨_, rfl⟩ hfits
    | cons name names =>
      have hn : (if lowercase key = name then n'.nodesAt names else []) =
          if lowercase key = name then n.nodesAt names else [] := by
        split_ifs with hname
        · subst hname
          refine ih ((fitsAt_table_cons.1 (fitsAt_append.1 hfits).2).1 rfl) ?_
          rintro ⟨rest, rfl, hrest⟩
          exact hreach ⟨rest, rfl, hrest⟩
        · rfl
      rw [nodesAt_append, nodesAt_append, nodesAt_table_cons, nodesAt_table_cons, hn]

/-- With one more entry, `treeOf` has one more entry under the first key of its path. -/
lemma changes_treeOf {before after : List (String × Node)} {e : String × Node} {first : String}
    {rest : List Step} (hpath : path e.1 = .key first :: rest) :
    Changes none (nest rest e.2) [lowercase first] (treeOf (before ++ after))
      (treeOf (before ++ e :: after)) := by
  have hnest : (nest (path e.1) e.2).entries = [(first, nest rest e.2)] := by
    rw [hpath]
    rfl
  rw [treeOf, treeOf, List.flatMap_append, List.flatMap_append, List.flatMap_cons, hnest]
  exact .entry rfl

end Node

namespace Layers

/-- One of the layers changes, at the end of a path of keys. -/
def Changes (old : Option Node) (new : Node) (changed : List String) (l l' : Layers) : Prop :=
  ∃ i t t', l.trees[i]? = some t ∧ l'.trees = l.trees.set i t' ∧ Node.Changes old new changed t t'

lemma findSome?_set {α β : Type} {f : α → Option β} {as : List α} {i : Nat} {a a' : α}
    (ha : as[i]? = some a) (hf : f a' = f a) : (as.set i a').findSome? f = as.findSome? f := by
  induction as generalizing i with
  | nil => rfl
  | cons b as ih =>
    cases i with
    | zero =>
      obtain rfl := Option.some.inj ha
      rw [List.set_cons_zero, List.findSome?_cons, List.findSome?_cons, hf]
    | succ i =>
      rw [List.set_cons_succ, List.findSome?_cons, List.findSome?_cons, ih ha]

lemma Changes.mention?_eq {old : Option Node} {new : Node} {changed : List String} {l l' : Layers}
    (h : Changes old new changed l l') (hfits : l.Fits) (p : Place)
    (hreach : ¬ Node.Reaches old new changed p.path) : l'.mention? p.path = l.mention? p.path := by
  obtain ⟨i, t, t', ht, htrees, hchange⟩ := h
  rw [mention?, mention?, htrees]
  refine findSome?_set ht ?_
  rw [hchange.nodesAt_eq (hfits t (List.mem_of_getElem? ht) p) hreach]

lemma changes_of_assignment {l : Layers} {before after : List (String × String)}
    {v : String × String} {e : String × Node} {first : String} {rest : List Node.Step}
    (hassigned : l.assignments = before ++ after) (hentry : variableEntry? v = some e)
    (hpath : Node.path e.1 = .key first :: rest) :
    Changes none (Node.nest rest e.2) [lowercase first] l
      { l with assignments := before ++ v :: after } := by
  refine ⟨0, _, _, rfl, rfl, ?_⟩
  rw [hassigned, List.filterMap_append, List.filterMap_append, List.filterMap_cons, hentry]
  exact Node.changes_treeOf hpath

end Layers

/-! ## Loading -/

/-- When settings are loaded from layers that fit, each `Leaf` has the value that `mention?` gives
for the highest layer, or its stock value, and each `Book` has the texts of the highest layers and
no others. They are valid, and after a change in one layer they differ only where `Node.Reaches`
holds. -/
theorem loaded_from_highest_layers {l : Layers} {s : Settings} (hfits : l.Fits)
    (hload : load l = .ok s) :
    (∀ leaf : Leaf, field? (leaf.value .stock) (leaf.kind.read Node.source)
      (l.mention? leaf.path) = some (leaf.value s)) ∧
    (∀ (book : Book) (name : String), (l.mention? (book.path ++ [name])).map Node.text? =
      ((book.entries s).get? name).map some) ∧
    s.validate = .ok () ∧
    ∀ (l' : Layers) (s' : Settings) (old : Option Node) (new : Node) (changed : List String),
      l'.Fits → load l' = .ok s' → Layers.Changes old new changed l l' →
        (∀ leaf : Leaf, leaf.value s' ≠ leaf.value s → Node.Reaches old new changed leaf.path) ∧
        ∀ (book : Book) (name : String),
          (book.entries s').get? name ≠ (book.entries s).get? name →
            Node.Reaches old new changed (book.path ++ [name]) := by
  obtain ⟨⟨n, hgather, hread⟩, hcheck⟩ := load_eq_ok_iff.1 hload
  obtain ⟨hleaves, hbooks⟩ := (read?_gathered_iff hfits hgather).1 hread
  refine ⟨hleaves, hbooks, hcheck, fun l' s' old new changed hfits' hload' hchange => ?_⟩
  obtain ⟨⟨n', hgather', hread'⟩, -⟩ := load_eq_ok_iff.1 hload'
  obtain ⟨hleaves', hbooks'⟩ := (read?_gathered_iff hfits' hgather').1 hread'
  constructor
  · intro leaf hne
    by_contra hreach
    have hsame : l'.mention? leaf.path = l.mention? leaf.path :=
      hchange.mention?_eq hfits (.leaf leaf) hreach
    refine hne (Option.some.inj ?_)
    rw [← hleaves', ← hleaves, hsame]
  · intro book name hne
    by_contra hreach
    have hsame : l'.mention? (book.path ++ [name]) = l.mention? (book.path ++ [name]) :=
      hchange.mention?_eq hfits (.entry book name) hreach
    refine hne (Option.map_injective (fun _ _ => Option.some.inj) ?_)
    rw [← hbooks', ← hbooks, hsame]

/-- The variable counts for more than the file, and nothing else changes with it. -/
theorem loaded_from_highest_layers_with_variable :
    let l : Layers := {
      defaults := some ⟨.json, Utf8.encode
        "\x7b\"tap\":\x7b\"capacity\":8,\"enabled\":false\x7d\x7d"⟩
      environment := some ⟨.json, Utf8.encode
        "\x7b\"responses\":\x7b\"templates\":\x7b\"Greet\":\"Hi\"\x7d\x7d\x7d"⟩ }
    let l' : Layers := { l with assignments := [("VOICE_FLOW__TAP__CAPACITY", "16")] }
    ∃ s s', load l = .ok s ∧ load l' = .ok s' ∧ s.tap.capacity = 8 ∧ s'.tap.capacity = 16 ∧
      s'.tap.enabled = false ∧ s'.turn.stallTimeout = 30000 ∧
      s'.responses.templates.get? "greet" = some "Hi" ∧
      ∀ leaf : Leaf, leaf.value s' ≠ leaf.value s → leaf = .capacity := by
  intro l l'
  obtain ⟨s, hload⟩ : ∃ s, load l = .ok s := exists_of_isOk (by decide +kernel)
  obtain ⟨s', hload'⟩ : ∃ s, load l' = .ok s := exists_of_isOk (by decide +kernel)
  have hfits : l.Fits := by decide +kernel
  have hfits' : l'.Fits := by decide +kernel
  obtain ⟨hleaves, -, -, hframe⟩ := loaded_from_highest_layers hfits hload
  obtain ⟨hleaves', hbooks', -⟩ := loaded_from_highest_layers hfits' hload'
  have hcapacity : field? (64 : UInt64) Node.source.word64? (l.mention? Leaf.capacity.path) =
    some s.tap.capacity := hleaves .capacity
  have hcapacity' : field? (64 : UInt64) Node.source.word64? (l'.mention? Leaf.capacity.path) =
    some s'.tap.capacity := hleaves' .capacity
  have henabled' : field? true Node.source.flag? (l'.mention? Leaf.enabled.path) =
    some s'.tap.enabled := hleaves' .enabled
  have hstall' : field? (30000 : UInt64) Node.source.word64?
    (l'.mention? Leaf.stallTimeout.path) = some s'.turn.stallTimeout := hleaves' .stallTimeout
  have hgreet' : (l'.mention? (Book.templates.path ++ ["greet"])).map Node.text? =
    (s'.responses.templates.get? "greet").map some := hbooks' .templates "greet"
  have honly (leaf : Leaf) (hne : leaf.value s' ≠ leaf.value s) : leaf = .capacity := by
    obtain ⟨e, hentry, hkey⟩ : ∃ e,
        variableEntry? ("VOICE_FLOW__TAP__CAPACITY", "16") = some e ∧ e.1 = "tap.capacity" :=
      Option.map_eq_some_iff.1 (by decide +kernel)
    have hpath : Node.path e.1 = [.key "tap", .key "capacity"] := by
      rw [hkey]
      decide +kernel
    have hnone : l.assignments = [] ++ [] := rfl
    obtain ⟨rest, hrest, hmentions⟩ := (hframe l' s' _ _ _ hfits' hload'
      (Layers.changes_of_assignment hnone hentry hpath)).1 leaf hne
    rw [show lowercase "tap" = "tap" by decide +kernel] at hrest
    have hcapacity : lowercase "capacity" = "capacity" := by decide +kernel
    cases leaf with
    | capacity => rfl
    | enabled =>
      obtain rfl : ["enabled"] = rest := by simpa [Leaf.path] using hrest
      simp [Node.Mentions, Node.nest, Node.nodesAt, Node.entries, hcapacity] at hmentions
    | _ => simp [Leaf.path] at hrest
  refine ⟨s, s', hload, hload', Option.some.inj (hcapacity.symm.trans ?_),
    Option.some.inj (hcapacity'.symm.trans ?_), Option.some.inj (henabled'.symm.trans ?_),
    Option.some.inj (hstall'.symm.trans ?_),
    Option.map_injective (fun _ _ => Option.some.inj) (hgreet'.symm.trans ?_), honly⟩
  all_goals decide +kernel

end VoiceTurn.Settings
