import Mathlib.Tactic.SplitIfs
import VoiceTurn.Proofs.Settings.Leaves
import VoiceTurn.Settings.Node

/-!
# Merging layers

What a layer puts at a path of names can be read off the tree of the layer (`Node.nodesAt`). When
a layer is laid over gathered settings, the last node that it puts at a path stands there
afterwards, and what stood there before if it puts none (`Node.overlays_overlay`). This holds for
paths that lead through tables to something that is no table (`Node.FitsAt`), for tables are merged
and everything else is replaced.
-/

namespace VoiceTurn.Settings.Node

/-! ## Trees and paths -/

def IsTable (n : Node) : Prop := ∃ es, n = .table es

/-- The nodes that a tree puts at a path of names, in the order in which it puts them. Keys are
compared in `lowercase`. -/
def nodesAt : Node → List String → List Node
  | n, [] => [n]
  | n, name :: names =>
    n.entries.flatMap fun e => if lowercase e.1 = name then nodesAt e.2 names else []

/-- A tree has a `table` at every place on the way along a path of names, and none at its end. -/
def FitsAt : Node → List String → Prop
  | n, [] => ¬ n.IsTable
  | n, name :: names =>
    n.IsTable ∧ ∀ e ∈ n.entries, lowercase e.1 = name → FitsAt e.2 names

/-- Whatever name comes after a path, a tree has tables on the way and none at the end. -/
def HoldsAt : Node → List String → Prop
  | n, [] => n.IsTable ∧ ∀ e ∈ n.entries, ¬ e.2.IsTable
  | n, name :: names =>
    n.IsTable ∧ ∀ e ∈ n.entries, lowercase e.1 = name → HoldsAt e.2 names

lemma holdsAt_iff {n : Node} {names : List String} :
    n.HoldsAt names ↔ ∀ name, n.FitsAt (names ++ [name]) := by
  induction names generalizing n with
  | nil =>
    refine ⟨fun ⟨htable, hentries⟩ name => ⟨htable, fun e he _ => hentries e he⟩, fun h => ?_⟩
    exact ⟨(h "").1, fun e he => (h (lowercase e.1)).2 e he rfl⟩
  | cons name names ih =>
    refine ⟨fun ⟨htable, hentries⟩ name' => ⟨htable, fun e he hname => ?_⟩, fun h => ?_⟩
    · exact ih.1 (hentries e he hname) name'
    · exact ⟨(h "").1, fun e he hname => ih.2 fun name' => (h name').2 e he hname⟩

instance (n : Node) : Decidable n.IsTable :=
  match n with
  | .table es => isTrue ⟨es, rfl⟩
  | .nil | .flag _ | .int _ | .float _ | .text _ | .list _ => isFalse nofun

instance decidableFitsAt : (n : Node) → (names : List String) → Decidable (n.FitsAt names)
  | n, [] => inferInstanceAs (Decidable (¬ n.IsTable))
  | n, name :: names =>
    have (m : Node) : Decidable (m.FitsAt names) := decidableFitsAt m names
    inferInstanceAs (Decidable
      (n.IsTable ∧ ∀ e ∈ n.entries, lowercase e.1 = name → FitsAt e.2 names))

instance decidableHoldsAt : (n : Node) → (names : List String) → Decidable (n.HoldsAt names)
  | n, [] => inferInstanceAs (Decidable (n.IsTable ∧ ∀ e ∈ n.entries, ¬ e.2.IsTable))
  | n, name :: names =>
    have (m : Node) : Decidable (m.HoldsAt names) := decidableHoldsAt m names
    inferInstanceAs (Decidable
      (n.IsTable ∧ ∀ e ∈ n.entries, lowercase e.1 = name → HoldsAt e.2 names))

/-- Along a path of names, gathered settings are tables with sorted entries, as far as they go. -/
def TidyAt : Node → List String → Prop
  | _, [] => True
  | n, name :: names => n.IsTable ∧ n.entries.Pairwise (fun a b => a.1 < b.1) ∧
    ∀ m, n.get? name = some m → TidyAt m names

lemma tidyAt_bare (names : List String) : (Node.table []).TidyAt names := by
  cases names with
  | nil => trivial
  | cons name names =>
    refine ⟨⟨_, rfl⟩, List.Pairwise.nil, fun m hm => ?_⟩
    cases hm

/-- The tree of a node at the end of a path. An index makes a `list`. -/
def nest : List Step → Node → Node
  | [], n => n
  | .key name :: steps, n => .table [(name, nest steps n)]
  | .index _ :: steps, n => .list [nest steps n]

/-- The tree of a layer: `nest` of its entries, side by side. -/
def treeOf (layer : List (String × Node)) : Node :=
  .table (layer.flatMap fun e => (nest (path e.1) e.2).entries)

lemma follow_getD (old : Option Node) (name : String) (names : List String) :
    follow get? (some (old.getD .nil)) (name :: names) = follow get? old (name :: names) := by
  cases old <;> rfl

/-! ## Entering a key -/

section
variable {old : Option Node} {key : String} {value : Node} {name : String} {names : List String}

/-- The node in which `key` has `value`, and everything else is as it was. -/
def withEntry (old : Option Node) (key : String) (value : Node) : Node :=
  .table (Dict.insertEntry key value (old.getD .nil).entries)

lemma follow_withEntry :
    follow get? (some (withEntry old key value)) (name :: names) =
      if name = key then follow get? (some value) names else follow get? old (name :: names) := by
  have hget : (withEntry old key value).get? name =
      if name = key then some value else (old.getD .nil).get? name := Dict.lookup_insertEntry
  show follow get? ((withEntry old key value).get? name) names = _
  rw [hget]
  split_ifs
  · rfl
  · exact follow_getD old name names

lemma tidyAt_withEntry (hold : ∀ n, old = some n → n.TidyAt (name :: names))
    (hvalue : name = key → value.TidyAt names) :
    (withEntry old key value).TidyAt (name :: names) := by
  have hsorted : (old.getD .nil).entries.Pairwise (fun a b => a.1 < b.1) := by
    cases old with
    | none => exact List.Pairwise.nil
    | some n => exact (hold n rfl).2.1
  refine ⟨⟨_, rfl⟩, Dict.insertEntry_sorted hsorted, fun m hm => ?_⟩
  have hget : (withEntry old key value).get? name =
      if name = key then some value else (old.getD .nil).get? name := Dict.lookup_insertEntry
  rw [hget] at hm
  split_ifs at hm with hname
  · cases hm
    exact hvalue hname
  · cases old with
    | none => cases hm
    | some n => exact (hold n rfl).2.2 m hm

end

/-! ## Merging a value into what is there -/

/-- What a value makes of the node that is there: a `table` is merged into it, and another value
replaces it. -/
def merged (old : Option Node) : Node → Node
  | .table es => putAll (old.getD (.table [])) es
  | value => value

lemma merged_of_not_isTable (old : Option Node) {value : Node} (h : ¬ value.IsTable) :
    merged old value = value := by
  cases value with
  | table es => exact absurd ⟨es, rfl⟩ h
  | _ => rfl

lemma put_eq (n : Node) (key : String) (value : Node) :
    n.put key value =
      withEntry (some n) (lowercase key) (merged (n.get? (lowercase key)) value) := by
  cases value <;> rfl

lemma nodesAt_table_cons (key : String) (value : Node) (es : List (String × Node)) (name : String)
    (names : List String) :
    (Node.table ((key, value) :: es)).nodesAt (name :: names) =
      (if lowercase key = name then value.nodesAt names else []) ++
        (Node.table es).nodesAt (name :: names) := List.flatMap_cons ..

lemma fitsAt_table_cons {key : String} {value : Node} {es : List (String × Node)} {name : String}
    {names : List String} :
    (Node.table ((key, value) :: es)).FitsAt (name :: names) ↔
      (lowercase key = name → value.FitsAt names) ∧ (Node.table es).FitsAt (name :: names) := by
  simp only [FitsAt, entries, List.forall_mem_cons]
  exact ⟨fun ⟨_, hvalue, hes⟩ => ⟨hvalue, ⟨es, rfl⟩, hes⟩,
    fun ⟨hvalue, _, hes⟩ => ⟨⟨_, rfl⟩, hvalue, hes⟩⟩

/-- After `merged` the last of `nodesAt` a path stands there, and what stood there before if there
is none. -/
lemma follow_merged {old : Option Node} {value : Node} {names : List String}
    (hfits : value.FitsAt names) :
    follow get? (some (merged old value)) names =
        (value.nodesAt names).getLast?.or (follow get? old names) ∧
      ((∀ n, old = some n → n.TidyAt names) → (merged old value).TidyAt names) := by
  induction names generalizing old value with
  | nil =>
    rw [merged_of_not_isTable old hfits]
    exact ⟨rfl, fun _ => trivial⟩
  | cons name names ih =>
    obtain ⟨⟨es, rfl⟩, -⟩ := id hfits
    have hold : follow get? old (name :: names) =
        follow get? (some (old.getD (.table []))) (name :: names) := by
      cases old <;> rfl
    have htidy (h : ∀ n, old = some n → n.TidyAt (name :: names)) :
        (old.getD (.table [])).TidyAt (name :: names) := by
      cases old with
      | none => exact tidyAt_bare (name :: names)
      | some n => exact h n rfl
    suffices h : ∀ n : Node,
        follow get? (some (putAll n es)) (name :: names) =
            ((Node.table es).nodesAt (name :: names)).getLast?.or
              (follow get? (some n) (name :: names)) ∧
          (n.TidyAt (name :: names) → (putAll n es).TidyAt (name :: names)) by
      rw [hold]
      exact ⟨(h _).1, fun hn => (h _).2 (htidy hn)⟩
    -- the entries of the table are put one after the other
    induction es with
    | nil => exact fun n => ⟨rfl, id⟩
    | cons e es ihes =>
      intro n
      obtain ⟨key, value⟩ := e
      obtain ⟨hvalue, hes⟩ := fitsAt_table_cons.1 hfits
      obtain ⟨hfollow, hkeeps⟩ := ihes hes (n.put key value)
      rw [putAll, hfollow, nodesAt_table_cons, List.getLast?_append, Option.or_assoc]
      refine ⟨congrArg _ ?_, fun hn => hkeeps ?_⟩
      · rw [put_eq, follow_withEntry]
        by_cases hname : name = lowercase key
        · subst hname
          rw [if_pos rfl, if_pos rfl]
          exact (ih (hvalue rfl)).1
        · rw [if_neg hname, if_neg (Ne.symm hname)]
          rfl
      · rw [put_eq]
        refine tidyAt_withEntry (fun m hm => Option.some.inj hm ▸ hn) ?_
        rintro rfl
        exact (ih (hvalue rfl)).2 fun m hm => hn.2.2 m hm

/-! ## Laying a layer over -/

/-- A `result` has at a path the last of `nodesAt` in the tree, or else what stood there before, as
far as `f` can tell nodes apart. Where there were only tidy tables on the way there still are. -/
def Overlays {β : Type} (f : Node → β) (names : List String) (old : Option Node)
    (tree result : Node) : Prop :=
  (follow get? (some result) names).map f =
      ((tree.nodesAt names).getLast?.or (follow get? old names)).map f ∧
    ((∀ n, old = some n → n.TidyAt names) → result.TidyAt names)

section
variable {β : Type} {f : Node → β} {old : Option Node} {key name : String} {names : List String}
  {tree result value : Node}

lemma Overlays.withEntry
    (h : lowercase key = name →
      Overlays f names ((old.getD .nil).get? (lowercase key)) tree result) :
    Overlays f (name :: names) old (.table [(key, tree)])
      (withEntry old (lowercase key) result) := by
  have hget : (old.getD .nil).get? (lowercase key) = old.bind (get? · (lowercase key)) := by
    cases old <;> rfl
  have hnodes : (Node.table [(key, tree)]).nodesAt (name :: names) =
      if lowercase key = name then tree.nodesAt names else [] := by
    rw [nodesAt_table_cons]
    exact List.append_nil _
  refine ⟨?_, fun hold => tidyAt_withEntry hold ?_⟩
  · rw [follow_withEntry, hnodes]
    by_cases hname : lowercase key = name
    · subst hname
      rw [if_pos rfl, if_pos rfl, (h rfl).1, hget]
      rfl
    · rw [if_neg hname, if_neg (Ne.symm hname)]
      rfl
  · rintro rfl
    refine (h rfl).2 fun m hm => ?_
    cases old with
    | none => cases hm
    | some n => exact (hold n rfl).2.2 m hm

/-- The spec of `putAt`: a value is put at the end of a path. Lists on the way are not looked
into. -/
lemma overlays_putAt (hf : ∀ ms ns, f (.list ms) = f (.list ns)) {steps : List Step}
    (hsteps : steps ≠ []) (hfits : (nest steps value).FitsAt names) :
    Overlays f names old (nest steps value) ((old.getD .nil).putAt value steps) := by
  induction steps generalizing old names with
  | nil => exact absurd rfl hsteps
  | cons step steps ih =>
    cases step with
    | index i =>
      cases names with
      | nil => exact ⟨congrArg some (hf _ _), fun _ => trivial⟩
      | cons name names => exact absurd hfits.1 nofun
    | key key =>
      cases names with
      | nil => exact absurd ⟨_, rfl⟩ hfits
      | cons name names =>
        have hvalue : lowercase key = name → (nest steps value).FitsAt names :=
          (fitsAt_table_cons.1 hfits).1
        cases steps with
        | nil =>
          rw [putAt, put_eq]
          refine Overlays.withEntry fun hname => ?_
          obtain ⟨hfollow, htidy⟩ := follow_merged (hvalue hname)
          exact ⟨congrArg (Option.map f) hfollow, htidy⟩
        | cons step steps =>
          exact Overlays.withEntry fun hname => ih (List.cons_ne_nil _ _) (hvalue hname)

end

/-! ## Paths of keys -/

/-- The steps of a path that have been read, newest first, begin with a key; before that a key is
being read. -/
def IsRooted (place : PathPlace) (steps : List Step) : Prop :=
  (∃ key, steps.getLast? = some (.key key)) ∨ steps = [] ∧ ∃ read, place = .name read

lemma IsRooted.push {place : PathPlace} {steps : List Step} (h : IsRooted place steps)
    (next : PathPlace) {step : Step} (hstep : steps = [] → ∃ key, step = .key key) :
    IsRooted next (step :: steps) := by
  rcases h with ⟨key, hkey⟩ | ⟨rfl, -⟩
  · exact .inl ⟨key, by rw [List.getLast?_cons, hkey]; rfl⟩
  · obtain ⟨key, rfl⟩ := hstep rfl
    exact .inl ⟨key, rfl⟩

lemma IsRooted.pathStep? {place next : PathPlace} {steps steps' : List Step} {c : Char}
    (h : IsRooted place steps) (hstep : pathStep? place steps c = some (next, steps')) :
    IsRooted next steps' := by
  unfold Node.pathStep? at hstep
  cases place with
  | name read =>
    dsimp only at hstep
    split_ifs at hstep <;> simp only [Option.some.injEq, Prod.mk.injEq] at hstep
    · obtain ⟨rfl, rfl⟩ := hstep
      exact h.imp_right fun hsteps => ⟨hsteps.1, _, rfl⟩
    · obtain ⟨rfl, rfl⟩ := hstep
      exact h.push _ fun _ => ⟨_, rfl⟩
    · obtain ⟨rfl, rfl⟩ := hstep
      exact h.push _ fun _ => ⟨_, rfl⟩
  | index read =>
    have hroot : ∃ key, steps.getLast? = some (.key key) := h.resolve_right fun hname => by
      obtain ⟨-, _, hname⟩ := hname
      cases hname
    dsimp only at hstep
    split_ifs at hstep
    · obtain ⟨i, -, hi⟩ := Option.map_eq_some_iff.1 hstep
      cases hi
      refine h.push _ fun hnil => ?_
      obtain ⟨key, hkey⟩ := hroot
      rw [hnil] at hkey
      cases hkey
    · cases hstep
      exact .inl hroot
  | closed =>
    have hroot : ∃ key, steps.getLast? = some (.key key) := h.resolve_right fun hname => by
      obtain ⟨-, _, hname⟩ := hname
      cases hname
    dsimp only at hstep
    split_ifs at hstep <;> cases hstep
    · exact .inl hroot
    · exact .inl hroot

lemma exists_key_of_pathFrom? {place : PathPlace} {steps path : List Step} {cs : List Char}
    (hroot : IsRooted place steps) (h : pathFrom? place steps cs = some path) :
    ∃ key rest, path = .key key :: rest := by
  have hreverse {steps : List Step} {key : String} (hkey : steps.getLast? = some (.key key)) :
      ∃ key rest, steps.reverse = .key key :: rest := by
    obtain ⟨init, rfl⟩ := List.getLast?_eq_some_iff.1 hkey
    exact ⟨key, init.reverse, by simp⟩
  induction cs generalizing place steps with
  | nil =>
    cases place with
    | name read =>
      cases read with
      | nil => cases h
      | cons c read =>
        cases h
        rcases hroot.push .closed fun _ => ⟨_, rfl⟩ with ⟨key, hkey⟩ | ⟨hnil, -⟩
        · exact hreverse hkey
        · cases hnil
    | index read => cases h
    | closed =>
      cases h
      rcases hroot with ⟨key, hkey⟩ | ⟨-, _, hname⟩
      · exact hreverse hkey
      · cases hname
  | cons c cs ih =>
    rw [pathFrom?] at h
    cases hstep : pathStep? place steps c with
    | none =>
      rw [hstep] at h
      cases h
    | some p =>
      rw [hstep] at h
      exact ih (hroot.pathStep? hstep) h

/-- Every `path` begins with a key. -/
lemma exists_path_eq (key : String) : ∃ first rest, path key = .key first :: rest := by
  unfold path
  cases h : pathFrom? (.name []) [] key.toList with
  | none => exact ⟨key, [], rfl⟩
  | some steps => exact exists_key_of_pathFrom? (.inr ⟨rfl, [], rfl⟩) h

/-! ## Layers -/

section
variable {β : Type} {f : Node → β} {n : Node} {key name : String} {value : Node}
  {names : List String} {layer : List (String × Node)}

lemma nodesAt_append (es es' : List (String × Node)) (name : String) (names : List String) :
    (Node.table (es ++ es')).nodesAt (name :: names) =
      (Node.table es).nodesAt (name :: names) ++ (Node.table es').nodesAt (name :: names) :=
  List.flatMap_append ..

lemma fitsAt_append {es es' : List (String × Node)} :
    (Node.table (es ++ es')).FitsAt (name :: names) ↔
      (Node.table es).FitsAt (name :: names) ∧ (Node.table es').FitsAt (name :: names) := by
  simp only [FitsAt, entries, List.forall_mem_append]
  exact ⟨fun ⟨_, hes, hes'⟩ => ⟨⟨⟨_, rfl⟩, hes⟩, ⟨_, rfl⟩, hes'⟩,
    fun ⟨⟨_, hes⟩, _, hes'⟩ => ⟨⟨_, rfl⟩, hes, hes'⟩⟩

/-- The spec of `overlay`: the last of `nodesAt` a path in the layer stands there afterwards, and
what stood there before if there is none. -/
lemma overlays_overlay (hf : ∀ ms ns, f (.list ms) = f (.list ns))
    (hfits : (treeOf layer).FitsAt (name :: names)) :
    Overlays f (name :: names) (some n) (treeOf layer) (n.overlay layer) := by
  induction layer generalizing n with
  | nil => exact ⟨rfl, fun h => h n rfl⟩
  | cons e layer ih =>
    obtain ⟨first, rest, hpath⟩ := exists_path_eq e.1
    -- the tree of the first entry is a table, and the trees of the others follow it
    have htree : treeOf (e :: layer) =
        .table ((nest (path e.1) e.2).entries ++ (treeOf layer).entries) := rfl
    have hnest : Node.table (nest (path e.1) e.2).entries = nest (path e.1) e.2 := by
      rw [hpath]
      rfl
    rw [htree] at hfits ⊢
    obtain ⟨hhead, htail⟩ := fitsAt_append.1 hfits
    rw [hnest] at hhead
    have hsteps : path e.1 ≠ [] := hpath ▸ List.cons_ne_nil _ _
    have hfirst : Overlays f (name :: names) (some n) (nest (path e.1) e.2)
      (n.putAt e.2 (path e.1)) := overlays_putAt hf hsteps hhead
    have hrest : Overlays f (name :: names) (some (n.putAt e.2 (path e.1))) (treeOf layer)
      ((n.putAt e.2 (path e.1)).overlay layer) := ih htail
    refine ⟨?_, fun htidy => hrest.2 fun m hm => Option.some.inj hm ▸ hfirst.2 htidy⟩
    have hresult : n.overlay (e :: layer) = (n.putAt e.2 (path e.1)).overlay layer := rfl
    have htable : Node.table (treeOf layer).entries = treeOf layer := rfl
    rw [hresult, hrest.1, nodesAt_append, hnest, htable, List.getLast?_append, Option.or_assoc,
      Option.map_or, Option.map_or, hfirst.1]

end

end VoiceTurn.Settings.Node
