/-!
# Dictionaries

Finite maps from texts to values, kept as lists of entries in ascending order of their keys, so that
a dictionary has one form and its entries come in one order. Texts are ordered by code points, which
is also the order of their UTF-8 bytes.
-/

namespace VoiceTurn

/-- A finite map with its entries in ascending order of keys. -/
structure Dict (α : Type) where
  entries : List (String × α) := []
  sorted : entries.Pairwise (fun a b => a.1 < b.1) := by exact List.Pairwise.nil

namespace Dict

variable {α : Type}

/-- Puts an entry at its place among sorted ones, over an earlier one of the same key. -/
def insertEntry (key : String) (value : α) : List (String × α) → List (String × α)
  | [] => [(key, value)]
  | (k, v) :: es =>
    if key < k then (key, value) :: (k, v) :: es
    else if key = k then (key, value) :: es
    else (k, v) :: insertEntry key value es

theorem mem_insertEntry {key : String} {value : α} {es : List (String × α)} {e : String × α}
    (h : e ∈ insertEntry key value es) : e = (key, value) ∨ e ∈ es := by
  induction es with
  | nil => simpa [insertEntry] using h
  | cons e' es ih =>
    simp only [insertEntry] at h
    split at h
    · simpa using h
    · split at h
      · rcases List.mem_cons.1 h with h | h
        · exact .inl h
        · exact .inr (List.mem_cons_of_mem _ h)
      · rcases List.mem_cons.1 h with h | h
        · exact .inr (by simp [h])
        · exact (ih h).imp_right (List.mem_cons_of_mem _)

theorem insertEntry_sorted {key : String} {value : α} {es : List (String × α)}
    (h : es.Pairwise (fun a b => a.1 < b.1)) :
    (insertEntry key value es).Pairwise (fun a b => a.1 < b.1) := by
  induction es with
  | nil => simp [insertEntry]
  | cons e es ih =>
    obtain ⟨hlt, hes⟩ := List.pairwise_cons.1 h
    simp only [insertEntry]
    split
    · rename_i hk
      exact List.pairwise_cons.2
        ⟨fun b hb => (List.mem_cons.1 hb).elim (fun hb => hb ▸ hk)
          (fun hb => String.lt_trans hk (hlt b hb)), h⟩
    · split
      · rename_i hk
        exact List.pairwise_cons.2 ⟨fun b hb => hk ▸ hlt b hb, hes⟩
      · rename_i hk hne
        refine List.pairwise_cons.2 ⟨fun b hb => ?_, ih hes⟩
        rcases mem_insertEntry hb with hb | hb
        · exact hb ▸ Std.lt_of_le_of_ne (String.not_lt.1 hk) (Ne.symm hne)
        · exact hlt b hb

def empty : Dict α := {}

/-- The dictionary in which `key` has the given `value`. -/
def insert (d : Dict α) (key : String) (value : α) : Dict α :=
  ⟨insertEntry key value d.entries, insertEntry_sorted d.sorted⟩

/-- Repeated `insert`: the last entry of a key counts. -/
def ofList (es : List (String × α)) : Dict α := es.foldl (fun d (k, v) => d.insert k v) empty

def get? (d : Dict α) (key : String) : Option α := d.entries.lookup key

section
variable {key k : String} {value v : α} {es : List (String × α)} {d : Dict α}

/-- An entry covers what the list has for its key, and nothing else. -/
theorem lookup_cons_eq_ite (es : List (String × α)) :
    ((key, value) :: es).lookup k = if k = key then some value else es.lookup k := by
  by_cases h : k = key
  · rw [if_pos h, h, List.lookup_cons_self]
  · have hne : (k == key) = false := by simpa using h
    rw [if_neg h, List.lookup_cons, hne]

theorem lookup_insertEntry :
    (insertEntry key value es).lookup k = if k = key then some value else es.lookup k := by
  induction es with
  | nil => exact lookup_cons_eq_ite []
  | cons e es ih =>
    obtain ⟨key', value'⟩ := e
    simp only [insertEntry]
    split
    · exact lookup_cons_eq_ite _
    · split
      · rename_i heq
        rw [lookup_cons_eq_ite, lookup_cons_eq_ite, heq]
        split <;> rfl
      · -- the entry stays where it is, and `key` is not its key
        rename_i hne
        rw [lookup_cons_eq_ite, lookup_cons_eq_ite, ih]
        split
        · rename_i heq
          rw [if_neg fun h => hne (h.symm.trans heq)]
        · rfl

theorem get?_insert :
    (d.insert key value).get? k = if k = key then some value else d.get? k :=
  lookup_insertEntry

theorem get?_foldl_insert_of_not_mem (h : k ∉ es.map Prod.fst) :
    (es.foldl (fun d (k, v) => d.insert k v) d).get? k = d.get? k := by
  induction es generalizing d with
  | nil => rfl
  | cons e es ih =>
    obtain ⟨hhead, htail⟩ : k ≠ e.1 ∧ k ∉ es.map Prod.fst := by simpa using h
    rw [List.foldl_cons, ih htail, get?_insert, if_neg hhead]

/-- A key that no entry has is not in `ofList`. -/
theorem get?_ofList_of_not_mem (h : k ∉ es.map Prod.fst) : (ofList es).get? k = none :=
  get?_foldl_insert_of_not_mem h

theorem get?_foldl_insert_of_mem (hkeys : (es.map Prod.fst).Nodup) (h : (k, v) ∈ es) :
    (es.foldl (fun d (k, v) => d.insert k v) d).get? k = some v := by
  induction es generalizing d with
  | nil => simp at h
  | cons e es ih =>
    obtain ⟨hhead, htail⟩ := List.nodup_cons.1 hkeys
    rw [List.foldl_cons]
    rcases List.mem_cons.1 h with rfl | h
    · -- nothing that follows has the same key
      rw [get?_foldl_insert_of_not_mem hhead, get?_insert, if_pos rfl]
    · exact ih htail h

/-- With different keys every entry can be found in `ofList`. -/
theorem get?_ofList_of_mem (hkeys : (es.map Prod.fst).Nodup) (h : (k, v) ∈ es) :
    (ofList es).get? k = some v :=
  get?_foldl_insert_of_mem hkeys h

theorem mem_foldl_insert {e : String × α}
    (h : e ∈ (es.foldl (fun d (k, v) => d.insert k v) d).entries) : e ∈ es ∨ e ∈ d.entries := by
  induction es generalizing d with
  | nil => exact .inr h
  | cons e' es ih =>
    rcases ih h with h | h
    · exact .inl (List.mem_cons_of_mem _ h)
    · rcases mem_insertEntry h with rfl | h
      · exact .inl List.mem_cons_self
      · exact .inr h

theorem mem_ofList {e : String × α} (h : e ∈ (ofList es).entries) : e ∈ es := by
  rcases mem_foldl_insert h with h | h
  · exact h
  · exact absurd h List.not_mem_nil

/-- With different keys `ofList` has for each key what the list has. -/
theorem get?_ofList (hkeys : (es.map Prod.fst).Nodup) : (ofList es).get? k = es.lookup k := by
  cases h : es.lookup k with
  | none =>
    refine get?_ofList_of_not_mem fun hmem => ?_
    obtain ⟨e, he, rfl⟩ := List.mem_map.1 hmem
    simpa using List.lookup_eq_none_iff.1 h e he
  | some v =>
    obtain ⟨front, back, rfl, -⟩ := List.lookup_eq_some_iff.1 h
    exact get?_ofList_of_mem hkeys (by simp)

theorem lookup_map {β : Type} (f : α → β) (es : List (String × α)) :
    (es.map fun e => (e.1, f e.2)).lookup k = (es.lookup k).map f := by
  induction es with
  | nil => rfl
  | cons e es ih =>
    rw [List.map_cons, lookup_cons_eq_ite, lookup_cons_eq_ite, ih]
    split <;> rfl

theorem lookup_eq_none_of_not_mem (h : k ∉ es.map Prod.fst) : es.lookup k = none := by
  refine List.lookup_eq_none_iff.2 fun e he => ?_
  have hne : k ≠ e.1 := fun heq => h (heq ▸ List.mem_map_of_mem he)
  simpa using hne

theorem lookup_eq_none_of_lt (h : ∀ e ∈ es, k < e.1) : es.lookup k = none := by
  refine lookup_eq_none_of_not_mem fun hmem => ?_
  obtain ⟨e, he, rfl⟩ := List.mem_map.1 hmem
  exact String.lt_irrefl _ (h e he)

theorem nodup_of_sorted (h : es.Pairwise (fun a b => a.1 < b.1)) : (es.map Prod.fst).Nodup := by
  refine List.pairwise_map.2 (h.imp fun hlt heq => ?_)
  rw [heq] at hlt
  exact String.lt_irrefl _ hlt

theorem lookup_cons_ne_none (e : String × α) (es : List (String × α)) :
    (e :: es).lookup e.1 ≠ none := by
  rw [List.lookup_cons_self]
  exact Option.some_ne_none _

/-- Sorted entries are known from what they have for each key. -/
theorem eq_of_lookup_eq {es es' : List (String × α)} (h : es.Pairwise (fun a b => a.1 < b.1))
    (h' : es'.Pairwise (fun a b => a.1 < b.1)) (hlookup : ∀ k, es.lookup k = es'.lookup k) :
    es = es' := by
  induction es generalizing es' with
  | nil =>
    cases es' with
    | nil => rfl
    | cons e' es' => exact absurd (hlookup e'.1).symm (lookup_cons_ne_none e' es')
  | cons e es ih =>
    cases es' with
    | nil => exact absurd (hlookup e.1) (lookup_cons_ne_none e es)
    | cons e' es' =>
      obtain ⟨key, value⟩ := e
      obtain ⟨key', value'⟩ := e'
      obtain ⟨hlt, hes⟩ := List.pairwise_cons.1 h
      obtain ⟨hlt', hes'⟩ := List.pairwise_cons.1 h'
      -- the lesser of the first keys would be missing on the other side
      have hkey : key = key' := by
        refine Decidable.byContradiction fun hne => ?_
        by_cases hless : key < key'
        · refine lookup_cons_ne_none (key, value) es ((hlookup key).trans ?_)
          exact lookup_eq_none_of_lt
            (List.forall_mem_cons.2 ⟨hless, fun e he => String.lt_trans hless (hlt' e he)⟩)
        · have hless' : key' < key := Std.lt_of_le_of_ne (String.not_lt.1 hless) (Ne.symm hne)
          refine lookup_cons_ne_none (key', value') es' ((hlookup key').symm.trans ?_)
          exact lookup_eq_none_of_lt
            (List.forall_mem_cons.2 ⟨hless', fun e he => String.lt_trans hless' (hlt e he)⟩)
      subst hkey
      have hvalue : some value = some value' := by
        simpa only [List.lookup_cons_self] using hlookup key
      obtain rfl := Option.some.inj hvalue
      refine congrArg _ (ih hes hes' fun k => ?_)
      have hk := hlookup k
      rw [lookup_cons_eq_ite, lookup_cons_eq_ite] at hk
      split at hk
      · rename_i heq
        rw [heq, lookup_eq_none_of_lt hlt, lookup_eq_none_of_lt hlt']
      · exact hk

/-- Dictionaries with the same `get?` are the same. -/
theorem ext_get? {d d' : Dict α} (h : ∀ k, d.get? k = d'.get? k) : d = d' := by
  obtain ⟨es, hes⟩ := d
  obtain ⟨es', hes'⟩ := d'
  obtain rfl : es = es' := eq_of_lookup_eq hes hes' h
  rfl

theorem lookup_eq_some_iff_mem (hkeys : (es.map Prod.fst).Nodup) :
    es.lookup k = some v ↔ (k, v) ∈ es := by
  constructor
  · intro h
    obtain ⟨front, back, rfl, -⟩ := List.lookup_eq_some_iff.1 h
    simp
  · intro h
    rw [← get?_ofList hkeys]
    exact get?_ofList_of_mem hkeys h

/-- A dictionary is `ofList` of its own entries, in any order. -/
theorem ofList_eq_of_perm (h : es.Perm d.entries) : ofList es = d := by
  have hkeys' : (d.entries.map Prod.fst).Nodup := nodup_of_sorted d.sorted
  have hkeys : (es.map Prod.fst).Nodup := (h.map Prod.fst).nodup_iff.2 hkeys'
  refine ext_get? fun k => Option.ext fun v => ?_
  rw [get?_ofList hkeys, get?, lookup_eq_some_iff_mem hkeys, lookup_eq_some_iff_mem hkeys',
    h.mem_iff]

end

end Dict

end VoiceTurn
