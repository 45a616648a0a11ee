import Mathlib.Data.List.Nodup
import VoiceTurn.Proofs.Json.Objects
import VoiceTurn.Proofs.Text.ByteOrder
import VoiceTurn.Settings.Validation

/-!
# Overrides of topics

The topic settings are turned into a registry by way of a document: the stock registry is written as
an object, the overrides are put into it, and what comes out is read back. This file shows that
nothing is lost or gained on the way. As long as the members of an object tell the topics of a
registry (`Registry.IsToldBy`), putting in one override replaces one topic, so the whole detour
replaces the topics that have an override and leaves the others
(`TopicSettings.registry_pointwise`).
-/

namespace VoiceTurn

open Json (Value)

namespace Topic

namespace Slot

lemma nodup_names : (all.map name).Nodup := by decide +kernel

lemma name_injective {s s' : Slot} (h : s.name = s'.name) : s = s' :=
  List.inj_on_of_nodup_map nodup_names s.mem_all s'.mem_all h

lemma ofName?_eq_some_iff {name : String} {slot : Slot} :
    ofName? name = some slot ↔ slot.name = name := by
  constructor
  · intro h
    simpa using List.find?_some h
  · intro h
    cases hfind : ofName? name with
    | none => exact absurd h (by simpa using List.find?_eq_none.1 hfind slot slot.mem_all)
    | some slot' =>
      have hname : slot'.name = name := by simpa using List.find?_some hfind
      rw [name_injective (hname.trans h.symm)]

lemma ofName?_name (slot : Slot) : ofName? slot.name = some slot := ofName?_eq_some_iff.2 rfl

end Slot

namespace Registry

/-! ## Documents of registries -/

/-- The members of an object are the topics of a registry, by `Slot.name`. -/
def IsToldBy (r : Registry) (members : List (String × Value)) : Prop :=
  ∀ name, members.lookup name = (Slot.ofName? name).map fun slot => .string (r.topic slot)

variable {r : Registry} {members : List (String × Value)}

lemma exists_toValue_eq (r : Registry) :
    ∃ members, r.toValue = .object members ∧ r.IsToldBy members := by
  refine ⟨_, Value.ofMembers_eq _, fun name => ?_⟩
  have hkeys : ((Slot.all.map fun s => (s.name, Value.string (r.topic s))).map Prod.fst).Nodup := by
    rw [List.map_map]
    exact Slot.nodup_names
  cases hname : Slot.ofName? name with
  | some slot =>
    rw [← Slot.ofName?_eq_some_iff.1 hname]
    exact Dict.get?_ofList_of_mem hkeys (List.mem_map_of_mem slot.mem_all)
  | none =>
    refine Dict.get?_ofList_of_not_mem fun hmem => ?_
    rw [List.map_map] at hmem
    obtain ⟨slot, -, hslot⟩ := List.mem_map.1 hmem
    rw [Slot.ofName?_eq_some_iff.2 hslot] at hname
    cases hname

lemma topic_replace (r : Registry) (slot slot' : Slot) (topic : String) :
    (r.replace slot topic).topic slot' = if slot' = slot then topic else r.topic slot' := rfl

/-- Inserting the topic of one slot is `Registry.replace`. -/
lemma IsToldBy.insertEntry (h : r.IsToldBy members) {name : String} {slot : Slot}
    (hslot : Slot.ofName? name = some slot) (topic : String) :
    (r.replace slot topic).IsToldBy (Dict.insertEntry name (.string topic) members) := by
  intro name'
  rw [Dict.lookup_insertEntry, h name']
  split_ifs with hname
  · rw [hname, hslot, Option.map_some, topic_replace, if_pos rfl]
  · refine Option.map_congr fun slot' hslot' => ?_
    have hne : slot' ≠ slot := by
      rintro rfl
      exact hname ((Slot.ofName?_eq_some_iff.1 hslot').symm.trans
        (Slot.ofName?_eq_some_iff.1 hslot))
    rw [topic_replace, if_neg hne]

/-- Repeated `replace`. -/
lemma topic_foldl_replace (topic : Slot → String) (slots : List Slot) (r : Registry) (slot : Slot) :
    ((slots.map fun s => (s, topic s)).foldl (fun r p => r.replace p.1 p.2) r).topic slot =
      if slot ∈ slots then topic slot else r.topic slot := by
  induction slots generalizing r with
  | nil => rfl
  | cons s slots ih =>
    rw [List.map_cons, List.foldl_cons, ih, replace]
    by_cases hslot : slot = s <;> simp [hslot]

/-- Fields that hold a topic for every slot are read as the registry of these topics. -/
lemma ofFields?_map {τ : Type} {text? : τ → Option String} {field : Slot → Option τ}
    (h : ∀ slot, Source.field? (stock.topic slot) text? (field slot) = some (r.topic slot)) :
    ofFields? text? (Slot.all.map field) = some r := by
  have hmapM (slots : List Slot) : ((slots.map fun s => (s, field s)).mapM fun p =>
      (Source.field? (stock.topic p.1) text? p.2).map (p.1, ·)) =
        some (slots.map fun s => (s, r.topic s)) := by
    induction slots with
    | nil => rfl
    | cons s slots ih => rw [List.map_cons, List.mapM_cons, h, ih]; rfl
  have hzip : Slot.all.zip (Slot.all.map field) = Slot.all.map fun s => (s, field s) := rfl
  have htopics : (Slot.all.map fun s => (s, r.topic s)).foldl
      (fun r p => r.replace p.1 p.2) stock = r := by
    refine congrArg Registry.mk (funext fun slot => ?_)
    exact (topic_foldl_replace r.topic Slot.all stock slot).trans (if_pos slot.mem_all)
  rw [ofFields?, hzip, hmapM]
  exact congrArg some htopics

/-- A registry is read back from members that it `IsToldBy`. -/
lemma ofValue?_of_isToldBy (h : r.IsToldBy members) : ofValue? (.object members) = some r := by
  have hread (slot : Slot) : Source.field? (stock.topic slot) Value.text?
      (members.lookup slot.name) = some (r.topic slot) := by
    rw [h, Slot.ofName?_name]
    rfl
  have hfields : (Value.object members).fields? (Slot.all.map Slot.name) =
      some (Slot.all.map fun slot => members.lookup slot.name) := by
    rw [Value.fields?, List.map_map]
    rfl
  rw [ofValue?, hfields]
  exact ofFields?_map hread

/-! ## Overrides -/

/-- The registry after `replace` for each entry that names a slot. -/
def override (r : Registry) (entries : List (String × String)) : Registry :=
  ⟨fun slot => (entries.lookup slot.name).getD (r.topic slot)⟩

lemma override_replace {name : String} {slot : Slot} (hslot : slot.name = name) (topic : String)
    {entries : List (String × String)} (hname : name ∉ entries.map Prod.fst) :
    (r.replace slot topic).override entries = r.override ((name, topic) :: entries) := by
  have hnone : entries.lookup name = none := by
    refine List.lookup_eq_none_iff.2 fun e he => bne_iff_ne.2 ?_
    rintro rfl
    exact hname (List.mem_map_of_mem he)
  refine congrArg Registry.mk (funext fun slot' => ?_)
  rw [Dict.lookup_cons_eq_ite, topic_replace]
  by_cases hslot' : slot' = slot
  · rw [hslot', hslot, if_pos rfl, if_pos rfl, hnone]
    rfl
  · rw [if_neg hslot', if_neg]
    intro h
    exact hslot' (Slot.name_injective (h.trans hslot.symm))

end Registry

end Topic

namespace TopicSettings

open Topic (Registry Slot)

variable {r : Registry} {members : List (String × Value)} {entries : List (String × String)}

lemma overrideMember_of_slot (h : r.IsToldBy members) {e : String × String} {slot : Slot}
    (hslot : Slot.ofName? e.1 = some slot) :
    overrideMember members e = .ok (Dict.insertEntry e.1 (.string e.2) members) := by
  rw [overrideMember, h, hslot]
  rfl

lemma overrideMember_of_no_slot (h : r.IsToldBy members) {e : String × String}
    (hslot : Slot.ofName? e.1 = none) :
    overrideMember members e = .error (.unknownTopic e.1) := by
  rw [overrideMember, h, hslot]
  rfl

/-- Whether an entry names no slot. -/
def isUnknown (e : String × String) : Bool := (Slot.ofName? e.1).isNone

/-- Overrides none of which `isUnknown` are put in. -/
lemma foldlM_overrideMember_of_known (h : r.IsToldBy members)
    (hsorted : entries.Pairwise fun a b => a.1 < b.1)
    (hknown : ∀ e ∈ entries, isUnknown e = false) :
    ∃ members', entries.foldlM overrideMember members = .ok members' ∧
      (r.override entries).IsToldBy members' := by
  induction entries generalizing r members with
  | nil => exact ⟨members, rfl, h⟩
  | cons e entries ih =>
    obtain ⟨hlt, hsorted⟩ := List.pairwise_cons.1 hsorted
    obtain ⟨hhead, htail⟩ := List.forall_mem_cons.1 hknown
    obtain ⟨slot, hslot⟩ := Option.isSome_iff_exists.1 (Option.isNone_eq_false_iff.1 hhead)
    have hname : e.1 ∉ entries.map Prod.fst := by
      intro hmem
      obtain ⟨e', he', heq⟩ := List.mem_map.1 hmem
      exact String.lt_irrefl _ (heq ▸ hlt e' he')
    -- no later entry has the same name, so the override stays
    obtain ⟨members', hfold, htold⟩ := ih (h.insertEntry hslot e.2) hsorted htail
    rw [Registry.override_replace (Slot.ofName?_eq_some_iff.1 hslot) e.2 hname] at htold
    refine ⟨members', ?_, htold⟩
    rw [List.foldlM_cons, overrideMember_of_slot h hslot]
    exact hfold

/-- The first override that `isUnknown` is reported, whatever has been put in before it. -/
lemma foldlM_overrideMember_of_unknown (h : r.IsToldBy members) {e : String × String}
    (hfirst : entries.find? isUnknown = some e) :
    entries.foldlM overrideMember members = .error (.unknownTopic e.1) := by
  induction entries generalizing r members with
  | nil => cases hfirst
  | cons e' entries ih =>
    rw [List.foldlM_cons]
    cases hslot : Slot.ofName? e'.1 with
    | none =>
      rw [List.find?_cons_of_pos (by rw [isUnknown, hslot]; rfl)] at hfirst
      obtain rfl := Option.some.inj hfirst
      rw [overrideMember_of_no_slot h hslot]
      rfl
    | some slot =>
      rw [List.find?_cons_of_neg (by rw [isUnknown, hslot]; exact Bool.false_ne_true)] at hfirst
      rw [overrideMember_of_slot h hslot]
      exact ih (h.insertEntry hslot e'.2) hfirst

variable (s : TopicSettings)

/-- With overrides that all name slots, `registry` is the pointwise `override`. -/
lemma registry_of_known (hknown : ∀ e ∈ s.overrides.entries, isUnknown e = false) :
    s.registry = .ok ((Registry.below s.root).override s.overrides.entries) := by
  cases hentries : s.overrides.entries with
  | nil =>
    rw [registry, hentries]
    rfl
  | cons e entries =>
    obtain ⟨members, hvalue, htold⟩ := Registry.exists_toValue_eq (.below s.root)
    obtain ⟨members', hfold, htold'⟩ :=
      foldlM_overrideMember_of_known htold s.overrides.sorted hknown
    rw [hentries] at hfold htold'
    simp only [registry, hentries, hvalue, hfold, bind, Except.bind,
      Registry.ofValue?_of_isToldBy htold']
    rfl

lemma registry_of_unknown {e : String × String}
    (hfirst : s.overrides.entries.find? isUnknown = some e) :
    s.registry = .error (.unknownTopic e.1) := by
  cases hentries : s.overrides.entries with
  | nil =>
    rw [hentries] at hfirst
    cases hfirst
  | cons e' entries =>
    obtain ⟨members, hvalue, htold⟩ := Registry.exists_toValue_eq (.below s.root)
    rw [hentries] at hfirst
    simp only [registry, hentries, hvalue, foldlM_overrideMember_of_unknown htold hfirst]
    rfl

variable {s}

lemma forall_known_of_registry {r : Registry} (h : s.registry = .ok r) :
    ∀ e ∈ s.overrides.entries, isUnknown e = false := by
  cases hfind : s.overrides.entries.find? isUnknown with
  | none => simpa using hfind
  | some e =>
    rw [s.registry_of_unknown hfind] at h
    cases h

/-- The only fault of `registry` is `unknownTopic`. -/
lemma exists_unknownTopic_of_registry {f : SettingsFault} (h : s.registry = .error f) :
    ∃ name, f = .unknownTopic name := by
  cases hfind : s.overrides.entries.find? isUnknown with
  | none =>
    rw [s.registry_of_known (by simpa using hfind)] at h
    cases h
  | some e =>
    rw [s.registry_of_unknown hfind] at h
    cases h
    exact ⟨_, rfl⟩

variable (s)

/-- A name that has an override and is the name of no slot. -/
def HasUnknown (name : String) : Prop :=
  (s.overrides.get? name).isSome ∧ name ∉ Slot.all.map Slot.name

lemma isUnknown_iff {e : String × String} :
    isUnknown e = true ↔ e.1 ∉ Slot.all.map Slot.name := by
  rw [isUnknown, Option.isNone_iff_eq_none, Slot.ofName?, List.find?_eq_none]
  simp

lemma hasUnknown_iff {name : String} :
    s.HasUnknown name ↔ ∃ e ∈ s.overrides.entries, isUnknown e = true ∧ e.1 = name := by
  have hsome : (s.overrides.get? name).isSome ↔ ∃ e ∈ s.overrides.entries, e.1 = name := by
    rw [Dict.get?, List.lookup_isSome_iff]
    exact exists_congr fun e => and_congr_right fun _ => by rw [beq_iff_eq, eq_comm]
  rw [HasUnknown, hsome]
  constructor
  · rintro ⟨⟨e, he, rfl⟩, hname⟩
    exact ⟨e, he, isUnknown_iff.2 hname, rfl⟩
  · rintro ⟨e, he, hunknown, rfl⟩
    exact ⟨⟨e, he, rfl⟩, isUnknown_iff.1 hunknown⟩

/-- The first override that `isUnknown` has the least name of all of these. -/
lemma least_of_find? {e : String × String}
    (hfirst : s.overrides.entries.find? isUnknown = some e) :
    s.HasUnknown e.1 ∧ ∀ other, s.HasUnknown other → other ≠ e.1 →
      Utf8.encode e.1 < Utf8.encode other := by
  obtain ⟨hunknown, before, rest, hentries, hbefore⟩ := List.find?_eq_some_iff_append.1 hfirst
  refine ⟨(s.hasUnknown_iff).2 ⟨e, List.mem_of_find?_eq_some hfirst, hunknown, rfl⟩, ?_⟩
  intro other hother hne
  obtain ⟨e', he', hunknown', rfl⟩ := (s.hasUnknown_iff).1 hother
  have hsorted := s.overrides.sorted
  rw [hentries] at he' hsorted
  obtain ⟨-, hsorted, -⟩ := List.pairwise_append.1 hsorted
  rcases List.mem_append.1 he' with he' | he'
  · -- what comes before the first unknown name is known
    exact absurd hunknown' (by simpa using hbefore e' he')
  · rcases List.mem_cons.1 he' with rfl | he'
    · exact absurd rfl hne
    · exact Utf8.encode_lt_encode ((List.pairwise_cons.1 hsorted).1 e' he')

/-! ### One more override -/

/-- The settings with `topic` in the place of the one of `name`. -/
def withOverride (s : TopicSettings) (name topic : String) : TopicSettings :=
  { s with overrides := s.overrides.insert name topic }

variable {s}

lemma isUnknown_eq_false_iff {e : String × String} :
    isUnknown e = false ↔ e.1 ∈ Slot.all.map Slot.name := by
  rw [← not_iff_not, Bool.not_eq_false]
  exact isUnknown_iff

/-- An override by the name of a slot is accepted, and it replaces the topic of that slot alone. -/
lemma registry_withOverride_slot (h : s.registry = .ok r) (slot : Slot) (topic : String) :
    (s.withOverride slot.name topic).registry = .ok (r.replace slot topic) := by
  have hknown := forall_known_of_registry h
  have hknown' : ∀ e ∈ (s.withOverride slot.name topic).overrides.entries, isUnknown e = false := by
    intro e he
    rcases Dict.mem_insertEntry he with rfl | he
    · exact isUnknown_eq_false_iff.2 (List.mem_map_of_mem slot.mem_all)
    · exact hknown e he
  obtain rfl : (Registry.below s.root).override s.overrides.entries = r :=
    Except.ok.inj ((registry_of_known s hknown).symm.trans h)
  rw [registry_of_known _ hknown']
  refine congrArg (Except.ok ∘ Registry.mk) (funext fun slot' => ?_)
  have hlookup : (s.withOverride slot.name topic).overrides.entries.lookup slot'.name =
      if slot'.name = slot.name then some topic else s.overrides.entries.lookup slot'.name :=
    Dict.lookup_insertEntry
  rw [hlookup]
  by_cases hslot : slot' = slot
  · rw [if_pos (congrArg Slot.name hslot), if_pos hslot]
    rfl
  · rw [if_neg fun hname => hslot (Slot.name_injective hname), if_neg hslot]
    rfl

/-- An override by a name that no slot has is refused because of that name. -/
lemma registry_withOverride_unknown (h : s.registry = .ok r) (hname : name ∉ Slot.all.map Slot.name)
    (topic : String) : (s.withOverride name topic).registry = .error (.unknownTopic name) := by
  have hknown := forall_known_of_registry h
  cases hfind : (s.withOverride name topic).overrides.entries.find? isUnknown with
  | none =>
    have hhas : (s.withOverride name topic).HasUnknown name := by
      refine ⟨?_, hname⟩
      rw [withOverride, Dict.get?_insert, if_pos rfl]
      rfl
    obtain ⟨e, he, hunknown, -⟩ := (hasUnknown_iff _).1 hhas
    exact absurd hunknown (List.find?_eq_none.1 hfind e he)
  | some e =>
    rw [registry_of_unknown _ hfind]
    rcases Dict.mem_insertEntry (List.mem_of_find?_eq_some hfind) with rfl | he
    · rfl
    · have hunknown := List.find?_some hfind
      rw [hknown e he] at hunknown
      cases hunknown

variable (s)

/-- A `registry` exists just when all overrides have the names of slots, and then a topic is the
override for its slot, or else the one of `Registry.below`. If there are overrides with other names,
the one that comes first in the order of bytes is reported. The document of the registry can always
be read back. -/
theorem registry_pointwise :
    ((∃ r, s.registry = .ok r) ↔
        ∀ name, (s.overrides.get? name).isSome → name ∈ Slot.all.map Slot.name) ∧
      (∀ r, s.registry = .ok r → ∀ slot : Slot, r.topic slot =
        (s.overrides.get? slot.name).getD ((Registry.below s.root).topic slot)) ∧
      (s.overrides.entries = [] → s.registry = .ok (.below s.root)) ∧
      (∀ name, s.registry = .error (.unknownTopic name) ↔
        s.HasUnknown name ∧ ∀ other, s.HasUnknown other → other ≠ name →
          Utf8.encode name < Utf8.encode other) ∧
      ((∃ name, s.HasUnknown name) → ∃ name, s.registry = .error (.unknownTopic name)) ∧
      s.registry ≠ .error .unreadable := by
  cases hfind : s.overrides.entries.find? isUnknown with
  | none =>
    have hok := s.registry_of_known (by simpa using hfind)
    have hnone : ∀ name, ¬ s.HasUnknown name := by
      intro name hname
      obtain ⟨e, he, hunknown, -⟩ := s.hasUnknown_iff.1 hname
      exact List.find?_eq_none.1 hfind e he hunknown
    rw [hok]
    refine ⟨iff_of_true ⟨_, rfl⟩ fun name hname => ?_, ?_, fun hempty => ?_, fun name => ?_, ?_,
      nofun⟩
    · by_contra hslot
      exact hnone name ⟨hname, hslot⟩
    · rintro r ⟨⟩ slot
      rfl
    · rw [hempty]
      rfl
    · exact iff_of_false nofun fun hname => hnone name hname.1
    · rintro ⟨name, hname⟩
      exact absurd hname (hnone name)
  | some e =>
    have herror := s.registry_of_unknown hfind
    obtain ⟨hunknown, hleast⟩ := s.least_of_find? hfind
    rw [herror]
    refine ⟨iff_of_false (fun ⟨_, h⟩ => nomatch h) fun hslots => ?_, nofun, fun hempty => ?_,
      fun name => ⟨?_, fun ⟨hname, hfirst⟩ => ?_⟩, fun _ => ⟨e.1, rfl⟩, nofun⟩
    · exact hunknown.2 (hslots e.1 hunknown.1)
    · rw [hempty] at hfind
      cases hfind
    · rintro ⟨⟩
      exact ⟨hunknown, hleast⟩
    · -- two least names cannot come before each other
      by_contra hne
      have hname' : name ≠ e.1 := fun h => hne (by rw [h])
      exact List.lt_asymm (hleast name hname hname') (hfirst e.1 hunknown hname'.symm)

end TopicSettings

end VoiceTurn
