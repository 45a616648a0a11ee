import VoiceTurn.Json.Decode
import VoiceTurn.Proofs.Json.Writing

/-!
# Records that are written and read back

A document of a record is read strictly, without regard to the order of its members: each member is
found by its name (`Value.IsWritingOf.exists_member?`), no name is repeated, so the fields of the
record are the members of the document (`Value.IsWritingOf.fields?_tree`), and a dictionary of texts
is read as it was (`Value.IsWritingOf.dict?_tree`).
-/

namespace VoiceTurn.Json

def Value.member? (v : Value) (name : String) : Option Value := v.get? name

def Tree.member? : Tree → String → Option Tree
  | .object ms, name => lookup name ms
  | _, _ => none

lemma Value.membersTree_eq_map (ms : List (String × Value)) :
    membersTree ms = ms.map fun m => (some m.1, m.2.tree) := by
  induction ms with
  | nil => rfl
  | cons m ms ih =>
    rw [membersTree, ih]
    rfl

namespace Tree

/-- Among members with different keys `lookup` finds the one of a name. -/
lemma lookup_membersTree {ms : List (String × Value)} (hnodup : (ms.map Prod.fst).Nodup)
    (name : String) : lookup name (Value.membersTree ms) = (ms.lookup name).map Value.tree := by
  -- the last member of a name counts, so the induction is over what has been found before
  suffices h : ∀ found : Option Tree,
      (Value.membersTree ms).foldl (fun found m => if m.1 = some name then some m.2 else found)
        found = ((ms.lookup name).map Value.tree).or found from
    (h none).trans (Option.or_none ..)
  induction ms with
  | nil => exact fun _ => rfl
  | cons m ms ih =>
    intro found
    obtain ⟨hmem, hrest⟩ := List.nodup_cons.1 hnodup
    obtain ⟨key, v⟩ := m
    rw [Value.membersTree, List.foldl_cons, ih hrest, Dict.lookup_cons_eq_ite]
    dsimp only
    by_cases hname : name = key
    · subst hname
      rw [Dict.lookup_eq_none_of_not_mem hmem, if_pos rfl, if_pos rfl]
      rfl
    · rw [if_neg hname, if_neg fun h => hname (Option.some.inj h).symm]

lemma occursOnce_membersTree {ms : List (String × Value)} (hnodup : (ms.map Prod.fst).Nodup)
    (name : String) : occursOnce (Value.membersTree ms) name = true := by
  have hcount : ((Value.membersTree ms).filter (·.1 = some name)).length =
      (ms.map Prod.fst).count name := by
    rw [Value.membersTree_eq_map, List.filter_map, List.length_map, ← List.countP_eq_length_filter,
      List.count, List.countP_map]
    refine List.countP_congr fun m _ => ?_
    simp
  exact decide_eq_true (hcount ▸ List.nodup_iff_count_le_one.1 hnodup name)

end Tree

namespace Value.IsWritingOf

variable {v w w' : Value} {ms : List (String × Value)}

lemma eq_of_ne_object (h : v.IsWritingOf w) (hw : ∀ ms, w ≠ .object ms) : v = w := by
  cases h with
  | object => exact absurd rfl (hw _)
  | _ => rfl

lemma exists_members (h : v.IsWritingOf (.object ms)) :
    ∃ ms', v = .object ms' ∧ (ms'.map Prod.fst).Nodup := by
  cases h with
  | object hnodup _ _ => exact ⟨_, rfl, hnodup⟩

/-- A document has a member wherever the value has one that it `IsWritingOf`. -/
lemma exists_member? (h : v.IsWritingOf w) {name : String} (hw : w.member? name = some w') :
    ∃ v' : Value, v.tree.member? name = some v'.tree ∧ v'.IsWritingOf w' := by
  cases h with
  | flag b => cases hw
  | text s => cases hw
  | word _ => cases hw
  | @object ms ms' hnodup hkeys hvalues =>
    have hmem : (name, w') ∈ ms' :=
      (Dict.lookup_eq_some_iff_mem (hkeys.nodup_iff.1 hnodup)).1 hw
    obtain ⟨m, hm, rfl⟩ := List.mem_map.1 (hkeys.symm.subset (List.mem_map_of_mem hmem))
    refine ⟨m.2, ?_, hvalues _ _ _ hm hmem⟩
    have hlookup : ms.lookup m.1 = some m.2 := (Dict.lookup_eq_some_iff_mem hnodup).2 hm
    exact (Tree.lookup_membersTree hnodup m.1).trans (congrArg (Option.map Value.tree) hlookup)

lemma fields?_tree (h : v.IsWritingOf (.object ms)) (names : List String) :
    v.tree.fields? names = some (names.map v.tree.member?) := by
  obtain ⟨ms', rfl, hnodup⟩ := h.exists_members
  have hsome : (membersTree ms').all (·.1.isSome) = true := by
    rw [membersTree_eq_map]
    simp
  have honce : names.all (Tree.occursOnce (membersTree ms')) = true :=
    List.all_eq_true.2 fun name _ => Tree.occursOnce_membersTree hnodup name
  rw [tree, Tree.fields?, hsome, honce]
  rfl

lemma entries?_membersTree {ms : List (String × Value)} (h : ∀ m ∈ ms, ∃ t, m.2 = .string t) :
    Tree.entries? (membersTree ms) = some (ms.map fun m => (m.1, m.2.text?.getD "")) := by
  induction ms with
  | nil => rfl
  | cons m ms ih =>
    obtain ⟨⟨t, ht⟩, hms⟩ := List.forall_mem_cons.1 h
    obtain ⟨key, v⟩ := m
    obtain rfl : v = .string t := ht
    rw [membersTree, Tree.entries?, ih hms]
    rfl

/-- A `Dict` is read from its document. -/
lemma dict?_tree {d : Dict String}
    (h : v.IsWritingOf (.object (d.entries.map fun (k, v) => (k, .string v)))) :
    v.tree.dict? = some d := by
  cases h with
  | @object ms _ hnodup hkeys hvalues =>
    have hsame (k : String) (v w : Value) (hv : (k, v) ∈ ms)
        (hw : (k, w) ∈ d.entries.map fun (k, v) => (k, Value.string v)) : v = w := by
      have hwriting := hvalues k v w hv hw
      obtain ⟨e, -, he⟩ := List.mem_map.1 hw
      obtain ⟨-, rfl⟩ := Prod.mk.inj he
      cases hwriting
      rfl
    obtain ⟨ws, hperm, hws⟩ := exists_perm_forall₂ hnodup hkeys hsame
    have heq : List.Forall₂ Eq ms ws := hws.imp fun _ _ h => Prod.ext h.1 h.2
    obtain rfl := List.forall₂_eq_eq_eq ▸ heq
    have htexts (m : String × Value) (hm : m ∈ ms) : ∃ t, m.2 = .string t := by
      obtain ⟨e, -, rfl⟩ := List.mem_map.1 (hperm.subset hm)
      exact ⟨e.2, rfl⟩
    have hentries : (ms.map fun m => (m.1, m.2.text?.getD "")).Perm d.entries := by
      have hmap := hperm.map fun m => (m.1, m.2.text?.getD "")
      rwa [List.map_map, show ((fun m : String × Value => (m.1, m.2.text?.getD "")) ∘
        fun (e : String × String) => (e.1, Value.string e.2)) = id from rfl, List.map_id] at hmap
    rw [tree, Tree.dict?, entries?_membersTree htexts, Option.map_some,
      Dict.ofList_eq_of_perm hentries]

end Value.IsWritingOf

lemma Tree.natBelow?_tree_ofNat {bound n : Nat} (h : n < bound) (hbound : bound ≤ UInt64.size) :
    (Value.ofNat n).tree.natBelow? bound = some n := by
  rw [Value.tree_ofNat, Tree.natBelow?, Numeral.number?_ofNat (h.trans_le hbound)]
  exact if_pos ⟨Int.natCast_nonneg n, h⟩

end VoiceTurn.Json
