import Mathlib.Tactic.Lemma
import VoiceTurn.Json.Value

/-!
# Objects that have been read

An object is read into a dictionary (`Value.ofMembers_eq`), so its members come in the order of
their keys, and so do the members of the objects in it (`Value.isOrdered_of_read?`).
-/

namespace VoiceTurn.Json.Value

lemma ofMembers_eq (ms : List (String × Value)) :
    ofMembers ms = .object (Dict.ofList ms).entries := by
  have hfold (d : Dict Value) : (ms.foldl (fun d m => d.insert m.1 m.2) d).entries =
      ms.foldl (fun sorted m => Dict.insertEntry m.1 m.2 sorted) d.entries := by
    induction ms generalizing d with
    | nil => rfl
    | cons m ms ih => exact ih (d.insert m.1 m.2)
  exact congrArg Value.object (hfold .empty).symm

/-- The members of a value, if it is an object, come in the order of their keys. -/
def IsOrdered : Value → Prop
  | .object members => members.Pairwise fun a b => a.1 < b.1
  | _ => True

lemma isOrdered_of_ofTree? {depth : Nat} {t : Tree} {v : Value} (h : ofTree? depth t = some v) :
    v.IsOrdered := by
  cases v with
  | object members =>
    cases t with
    | object ms =>
      rw [ofTree?] at h
      split at h
      · cases h
      · obtain ⟨vs, -, hvs⟩ := Option.map_eq_some_iff.1 h
        rw [ofMembers_eq] at hvs
        obtain rfl := Value.object.inj hvs
        exact (Dict.ofList vs).sorted
    | _ => simp [ofTree?] at h
  | _ => trivial

/-- The values of `ofMembers?` have been read from trees. -/
lemma exists_ofTree?_of_mem {depth : Nat} {ms : List (Option String × Tree)}
    {vs : List (String × Value)} (h : ofMembers? depth ms = some vs) {m : String × Value}
    (hm : m ∈ vs) : ∃ t, ofTree? depth t = some m.2 := by
  induction ms generalizing vs with
  | nil =>
    rw [ofMembers?] at h
    cases h
    exact absurd hm List.not_mem_nil
  | cons head ms ih =>
    obtain ⟨key?, t⟩ := head
    rw [ofMembers?] at h
    obtain ⟨key, -, h⟩ := Option.bind_eq_some_iff.1 h
    obtain ⟨v, hv, h⟩ := Option.bind_eq_some_iff.1 h
    obtain ⟨rest, hrest, h⟩ := Option.bind_eq_some_iff.1 h
    cases h
    rcases List.mem_cons.1 hm with rfl | hm
    · exact ⟨t, hv⟩
    · exact ih hrest hm

/-- In an object that has been read, every member that is an object `IsOrdered`. -/
lemma isOrdered_of_read? {text : List Char} {members : List (String × Value)}
    (h : read? text = some (.object members)) {m : String × Value} (hm : m ∈ members) :
    m.2.IsOrdered := by
  obtain ⟨t, -, h⟩ := Option.bind_eq_some_iff.1 h
  cases t with
  | object ms =>
    rw [ofTree?, if_neg (by decide)] at h
    obtain ⟨vs, hvs, h⟩ := Option.map_eq_some_iff.1 h
    rw [ofMembers_eq] at h
    cases h
    obtain ⟨t, ht⟩ := exists_ofTree?_of_mem hvs (Dict.mem_ofList hm)
    exact isOrdered_of_ofTree? ht
  | _ => simp [ofTree?] at h

end VoiceTurn.Json.Value
