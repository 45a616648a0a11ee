import Mathlib.Tactic.Lemma
import Mathlib.Tactic.SplitIfs
import VoiceTurn.Proofs.Json.Objects
import VoiceTurn.Proofs.Text.ByteOrder
import VoiceTurn.Proofs.Text.Template
import VoiceTurn.Response.Composer

/-!
# Composed sentences

A composer fills the placeholders of a template one after the other. When neither the template nor
the values hold stray braces, this is a single pass in which every placeholder gets its first value
(`Composer.compose_in_one_pass`). Only the text of an intent may hold braces: it is filled in last,
so nothing looks at it again.
-/

namespace VoiceTurn.Response

open Json (Value)

/-! ## What a payload says -/

namespace Intent

/-- A payload spells an object with the given members. -/
def IsReadAs (payload : Bytes) (members : List (String × Value)) : Prop :=
  ∃ text, Utf8.decode? payload = some text ∧ Value.read? text.toList = some (.object members)

/-- The text of an intent, empty when there is none. -/
def textOf (members : List (String × Value)) : String :=
  ((member? members "text").bind Value.text?).getD ""

/-- The values listed under `slots`. -/
def slotsOf (members : List (String × Value)) : List (String × String) :=
  match member? members "slots" with
  | some (.object slots) => slots.map fun (key, v) => (key, valueText v)
  | _ => []

/-- The values listed under `entities`. -/
def entitiesOf (members : List (String × Value)) : List (String × String) :=
  match member? members "entities" with
  | some (.array entities) => entities.filterMap entity?
  | _ => []

section
variable {payload : Bytes} {members : List (String × Value)}

lemma read?_of_isReadAs (h : IsReadAs payload members) :
    read? payload =
      some ⟨nameOf members, textOf members, slotsOf members ++ entitiesOf members⟩ := by
  obtain ⟨text, htext, hvalue⟩ := h
  rw [read?, htext, Option.bind_eq_bind, Option.bind_some, hvalue]
  rfl

lemma exists_isReadAs_of_read? {i : Intent} (h : read? payload = some i) :
    ∃ members, IsReadAs payload members ∧ i.name = nameOf members := by
  obtain ⟨text, htext, h⟩ := Option.bind_eq_some_iff.1 h
  obtain ⟨v, hv, h⟩ := Option.bind_eq_some_iff.1 h
  cases v with
  | object members =>
    cases h
    exact ⟨members, ⟨text, htext, hv⟩, rfl⟩
  | _ => cases h

/-- Slots come in the order of the bytes of their names. -/
lemma slotsOf_sorted (h : IsReadAs payload members) :
    (slotsOf members).Pairwise fun a b => Utf8.encode a.1 < Utf8.encode b.1 := by
  obtain ⟨text, -, hvalue⟩ := h
  unfold slotsOf
  split
  · rename_i slots hslots
    have hmem : ("slots", Value.object slots) ∈ members := by
      obtain ⟨before, after, hmembers, -⟩ := List.lookup_eq_some_iff.1 hslots
      rw [hmembers]
      exact List.mem_append_right before List.mem_cons_self
    have hordered : slots.Pairwise fun a b => a.1 < b.1 := Value.isOrdered_of_read? hvalue hmem
    rw [List.pairwise_map]
    exact hordered.imp fun hlt => Utf8.encode_lt_encode hlt
  · exact List.Pairwise.nil

end

end Intent

/-! ## Which template is taken -/

/-- The template of an intent: the one that is stored under its name, in `lowercase`, or else the
general one. -/
inductive Phrases.Selects (p : Phrases) (name : String) : String → Prop
  | stored {key template : String} (hmem : (key, template) ∈ p.templates.entries)
      (hkey : lowercase key = lowercase name) : Selects p name template
  | general (hnone : ∀ e ∈ p.templates.entries, lowercase e.1 ≠ lowercase name) :
      Selects p name p.general

/-- No two templates are stored under names with the same `lowercase` form. -/
def Phrases.IsDistinct (p : Phrases) : Prop :=
  (p.templates.entries.map fun e => lowercase e.1).Nodup

namespace Composer

section
variable {p : Phrases} {name template : String}

lemma templateFor_of_selects (hp : p.IsDistinct) (h : p.Selects name template) :
    (ofPhrases p).templateFor name = template := by
  have htemplates : (ofPhrases p).templates =
      Dict.ofList (p.templates.entries.map fun e => (lowercase e.1, e.2)) := rfl
  have hkeys : (p.templates.entries.map fun e => (lowercase e.1, e.2)).map Prod.fst =
      p.templates.entries.map fun e => lowercase e.1 := by
    rw [List.map_map]
    rfl
  cases h with
  | stored hmem hkey =>
    rw [Phrases.IsDistinct, ← hkeys] at hp
    have hfound := Dict.get?_ofList_of_mem hp (List.mem_map_of_mem hmem)
    rw [hkey] at hfound
    rw [templateFor, htemplates, hfound]
    rfl
  | general hnone =>
    have hmissing : lowercase name ∉
        (p.templates.entries.map fun e => (lowercase e.1, e.2)).map Prod.fst := by
      rw [hkeys]
      intro hmem
      obtain ⟨e, he, hname⟩ := List.mem_map.1 hmem
      exact hnone e he hname
    rw [templateFor, htemplates, Dict.get?_ofList_of_not_mem hmissing]
    rfl

/-- For every intent `templateFor` gives exactly the template that `Selects` has. -/
lemma selects_iff (hp : p.IsDistinct) :
    p.Selects name template ↔ (ofPhrases p).templateFor name = template := by
  refine ⟨templateFor_of_selects hp, ?_⟩
  rintro rfl
  by_cases hstored : ∃ e ∈ p.templates.entries, lowercase e.1 = lowercase name
  · obtain ⟨⟨key, template⟩, hmem, hkey⟩ := hstored
    have hselects : p.Selects name template := .stored hmem hkey
    rwa [templateFor_of_selects hp hselects]
  · have hselects : p.Selects name p.general := by
      apply Phrases.Selects.general
      intro e he hkey
      exact hstored ⟨e, he, hkey⟩
    rwa [templateFor_of_selects hp hselects]

end

/-! ## Filling placeholders -/

/-- A `fillAll` is a single pass over the template, when no value holds a brace but perhaps the last
one. -/
lemma fillAll_spelled {bindings : List (String × String)} {last : String × String}
    {parts : List Part} (hbindings : ∀ b ∈ bindings, IsPlain b.1 ∧ IsPlain b.2)
    (hlast : IsPlain last.1) (hparts : ∀ part ∈ parts, part.IsPlain) :
    fillAll (bindings ++ [last]) (Template.spelled parts) =
      Template.said (bindings ++ [last]) parts := by
  -- after each value the rest of the list is filled into what is again a template
  induction bindings generalizing parts with
  | nil =>
    rw [List.nil_append, fillAll_cons, Template.fill_spelled hlast hparts, Template.said_cons,
      Template.said_nil]
    rfl
  | cons b bindings ih =>
    obtain ⟨⟨hname, hvalue⟩, hrest⟩ := List.forall_mem_cons.1 hbindings
    rw [List.cons_append, fillAll_cons, Template.fill_spelled hname hparts, Template.said_cons]
    exact ih hrest (Template.isPlain_map_bind hvalue hparts)

/-- The sentence for an intent is what `Template.said` makes of its template in one pass, each
placeholder with its first value: slots come first, in the order of the bytes of their names, then
entities as they are listed, then name and text of the intent. Without an intent it is
`Phrases.fallback`. -/
theorem compose_in_one_pass {p : Phrases} (hp : p.IsDistinct) (payload : Bytes) :
    (∀ members, Intent.IsReadAs payload members → Intent.nameOf members ≠ "" →
      ((Intent.slotsOf members).Pairwise fun a b => Utf8.encode a.1 < Utf8.encode b.1) ∧
      ∀ template parts, p.Selects (Intent.nameOf members) template →
        template.toList = Template.spelled parts → (∀ part ∈ parts, part.IsPlain) →
        (∀ b ∈ Intent.slotsOf members ++ Intent.entitiesOf members,
          IsPlain b.1 ∧ IsPlain b.2) →
        IsPlain (Intent.nameOf members) →
        (ofPhrases p).compose payload = String.ofList (Template.said
          (Intent.slotsOf members ++ Intent.entitiesOf members ++
            [("intent", Intent.nameOf members), ("text", Intent.textOf members)]) parts)) ∧
    ((∀ members, Intent.IsReadAs payload members → Intent.nameOf members = "") →
      (ofPhrases p).compose payload = p.fallback) := by
  refine ⟨?_, ?_⟩
  · intro members hread hname
    refine ⟨Intent.slotsOf_sorted hread, ?_⟩
    intro template parts hselects hspelled hparts hvalues hplain
    have hnonempty : ¬ (Intent.nameOf members).toList.isEmpty = true := by
      intro hempty
      exact hname (String.toList_eq_nil_iff.1 (List.isEmpty_iff.1 hempty))
    have hbindings : ∀ b ∈ Intent.slotsOf members ++ Intent.entitiesOf members ++
        [("intent", Intent.nameOf members)], IsPlain b.1 ∧ IsPlain b.2 := by
      intro b hb
      rcases List.mem_append.1 hb with hb | hb
      · exact hvalues b hb
      · obtain rfl := List.mem_singleton.1 hb
        have hintent : IsPlain "intent" := by decide
        exact ⟨hintent, hplain⟩
    have htext : IsPlain ("text", Intent.textOf members).1 := by
      have hplain : IsPlain "text" := by decide
      exact hplain
    have hfill := fillAll_spelled hbindings htext hparts
    rw [List.append_assoc] at hfill
    simp only [compose, Intent.read?_of_isReadAs hread, if_neg hnonempty,
      (selects_iff hp).1 hselects, hspelled]
    exact congrArg String.ofList hfill
  · intro hnone
    unfold compose
    split
    · rename_i i hi
      obtain ⟨members, hread, hname⟩ := Intent.exists_isReadAs_of_read? hi
      rw [hname, hnone members hread]
      rfl
    · rfl

/-- A slot comes before an entity of the same name, a placeholder in the text of an intent is not
filled, and one without a value stays. A payload that is no text has no intent. -/
theorem compose_in_one_pass_of_nested_intent :
    let p : Phrases :=
      { templates := Dict.ofList [("SetLight",
          "The \x7bname\x7d in the \x7broom\x7d is \x7bstate\x7d: \x7btext\x7d, \x7bwho\x7d")] }
    let document := "\x7b\"intent\":\x7b\"name\":\"setlight\"\x7d," ++
      "\"slots\":\x7b\"state\":\"on\",\"name\":\"lamp\"\x7d," ++
      "\"entities\":[\x7b\"entity\":\"state\",\"value\":\"off\"\x7d," ++
      "\x7b\"entity\":\"room\",\"value\":\x7b\"value\":\"hall\"\x7d\x7d]," ++
      "\"text\":\"\x7bname\x7d on\"\x7d"
    p.IsDistinct ∧
    (ofPhrases p).compose (Utf8.encode document) =
      "The lamp in the hall is on: \x7bname\x7d on, \x7bwho\x7d" ∧
    (ofPhrases p).compose [0xFF] = "Sorry, I did not understand that." := by
  intro p document
  have hp : p.IsDistinct := by
    show List.Nodup _
    decide +kernel
  have hread : Intent.IsReadAs (Utf8.encode document)
      [("entities", .array
          [.object [("entity", .string "state"), ("value", .string "off")],
            .object [("entity", .string "room"), ("value", .object [("value", .string "hall")])]]),
        ("intent", .object [("name", .string "setlight")]),
        ("slots", .object [("name", .string "lamp"), ("state", .string "on")]),
        ("text", .string "\x7bname\x7d on")] := by
    have htokens : Json.Token.read? document.toList = some
        [.openObject, .string (some "intent"), .colon, .openObject, .string (some "name"), .colon,
          .string (some "setlight"), .closeObject, .comma, .string (some "slots"), .colon,
          .openObject, .string (some "state"), .colon, .string (some "on"), .comma,
          .string (some "name"), .colon, .string (some "lamp"), .closeObject, .comma,
          .string (some "entities"), .colon, .openArray, .openObject, .string (some "entity"),
          .colon, .string (some "state"), .comma, .string (some "value"), .colon,
          .string (some "off"), .closeObject, .comma, .openObject, .string (some "entity"), .colon,
          .string (some "room"), .comma, .string (some "value"), .colon, .openObject,
          .string (some "value"), .colon, .string (some "hall"), .closeObject, .closeObject,
          .closeArray, .comma, .string (some "text"), .colon, .string (some "\x7bname\x7d on"),
          .closeObject] := by
      decide +kernel
    refine ⟨document, Utf8.decode?_encode _, ?_⟩
    rw [Value.read?, Json.Tree.read?, htokens]
    rfl
  obtain ⟨hcompose, -⟩ := compose_in_one_pass hp (Utf8.encode document)
  obtain ⟨-, hsentence⟩ := hcompose _ hread (by decide +kernel)
  obtain ⟨-, hfallback⟩ := compose_in_one_pass hp [0xFF]
  have htemplate : ("SetLight", "The \x7bname\x7d in the \x7broom\x7d is \x7bstate\x7d: " ++
      "\x7btext\x7d, \x7bwho\x7d") ∈ p.templates.entries := by
    decide +kernel
  have hspoken := hsentence _
    [.literal "The ", .placeholder "name", .literal " in the ", .placeholder "room",
      .literal " is ", .placeholder "state", .literal ": ", .placeholder "text", .literal ", ",
      .placeholder "who"]
    (.stored htemplate (by decide +kernel)) (by decide +kernel) (by decide +kernel)
    (by decide +kernel) (by decide +kernel)
  refine ⟨hp, hspoken.trans (by decide +kernel), hfallback ?_⟩
  rintro members ⟨text, htext, -⟩
  have hnone : Utf8.decode? [0xFF] = none := by decide +kernel
  rw [hnone] at htext
  cases htext

end Composer

end VoiceTurn.Response
