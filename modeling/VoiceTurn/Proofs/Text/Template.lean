import Mathlib.Tactic.Lemma
import Mathlib.Tactic.SplitIfs
import VoiceTurn.Text.Placeholder

/-!
# Templates

A template is put together from plain texts and placeholders, and neither the texts nor the names
hold braces. Filling one placeholder gives a template again, in which the value stands for that
placeholder (`Template.fill_spelled`); what is said in the end for a list of values is what is said
for the template with the first of them and the rest of the list (`Template.said_cons`).
-/

namespace VoiceTurn

def IsPlain (s : String) : Prop := '{' ∉ s.toList ∧ '}' ∉ s.toList

instance (s : String) : Decidable (IsPlain s) :=
  inferInstanceAs (Decidable (_ ∧ _))

namespace Placeholder

lemma eq_of_append_brace_eq {x y s t : List Char} (hx : '}' ∉ x) (hy : '}' ∉ y)
    (h : x ++ '}' :: s = y ++ '}' :: t) : x = y := by
  induction x generalizing y with
  | nil =>
    cases y with
    | nil => rfl
    | cons c y =>
      have hc : '}' = c := (List.cons.inj h).1
      exact absurd (hc ▸ List.mem_cons_self) hy
  | cons c x ih =>
    rw [List.mem_cons, not_or] at hx
    cases y with
    | nil =>
      have hc : c = '}' := (List.cons.inj h).1
      exact absurd hc.symm hx.1
    | cons d y =>
      rw [List.mem_cons, not_or] at hy
      obtain ⟨rfl, hrest⟩ := List.cons.inj h
      rw [ih hx.2 hy.2 hrest]

/-- Another placeholder stays as it is written. -/
lemma fill_written_append_of_ne {name other value rest : List Char} (hname : '}' ∉ name)
    (hother : '{' ∉ other ∧ '}' ∉ other) (hne : other ≠ name) :
    fill name value (written other ++ rest) = written other ++ fill name value rest := by
  have hprefix : ¬ ('{' = '{' ∧ (name ++ ['}']).isPrefixOf (other ++ '}' :: rest) = true) := by
    rintro ⟨-, h⟩
    obtain ⟨t, ht⟩ := List.isPrefixOf_iff_prefix.1 h
    rw [List.append_assoc, List.singleton_append] at ht
    exact hne (eq_of_append_brace_eq hname hother.2 ht).symm
  have htail : '{' ∉ other ++ ['}'] := by
    rw [List.mem_append, not_or]
    exact ⟨hother.1, by decide⟩
  have hlayout : other ++ '}' :: rest = (other ++ ['}']) ++ rest := by simp
  rw [written, List.cons_append, List.cons_append, List.append_assoc, List.singleton_append, fill,
    if_neg hprefix, hlayout, fill_append_of_not_mem htail]
  rfl

end Placeholder

inductive Part where
  | literal (text : String)
  | placeholder (name : String)
  deriving DecidableEq

namespace Part

def spelled : Part → List Char
  | literal text => text.toList
  | placeholder name => Placeholder.written name.toList

def IsPlain : Part → Prop
  | literal text | placeholder text => VoiceTurn.IsPlain text

instance : DecidablePred IsPlain
  | literal text | placeholder text => inferInstanceAs (Decidable (VoiceTurn.IsPlain text))

/-- The piece with a value for one placeholder. -/
def bind (b : String × String) : Part → Part
  | literal text => literal text
  | placeholder name => if name = b.1 then literal b.2 else placeholder name

/-- What is said for a piece: its text, or the first value of its placeholder. A placeholder without
a value stays as it is written. -/
def said (bindings : List (String × String)) : Part → List Char
  | literal text => text.toList
  | placeholder name =>
    match bindings.lookup name with
    | some value => value.toList
    | none => Placeholder.written name.toList

section
variable {b : String × String} {part : Part}

lemma IsPlain.bind (hpart : part.IsPlain) (hvalue : VoiceTurn.IsPlain b.2) :
    (part.bind b).IsPlain := by
  cases part with
  | literal text => exact hpart
  | placeholder name =>
    rw [Part.bind]
    split_ifs
    · exact hvalue
    · exact hpart

lemma said_nil : part.said [] = part.spelled := by
  cases part <;> rfl

/-- The first binding of a name is the one that counts. -/
lemma said_cons (bindings : List (String × String)) :
    part.said (b :: bindings) = (part.bind b).said bindings := by
  cases part with
  | literal text => rfl
  | placeholder name =>
    obtain ⟨key, value⟩ := b
    by_cases h : name = key
    · subst h
      simp only [Part.bind, if_true, said, List.lookup_cons_self]
    · have hne : (name == key) = false := by simpa using h
      simp only [Part.bind, if_neg h, said, List.lookup_cons, hne]

/-- A `fill` of a piece is a `bind`. -/
lemma fill_spelled_append (hname : VoiceTurn.IsPlain b.1) (hpart : part.IsPlain)
    (rest : List Char) :
    Placeholder.fill b.1.toList b.2.toList (part.spelled ++ rest) =
      (part.bind b).spelled ++ Placeholder.fill b.1.toList b.2.toList rest := by
  cases part with
  | literal text => exact Placeholder.fill_append_of_not_mem hpart.1
  | placeholder name =>
    by_cases h : name = b.1
    · subst h
      rw [Part.bind, if_pos rfl]
      exact Placeholder.fill_written_append _ _ rest
    · have hne : name.toList ≠ b.1.toList := fun heq => h (String.toList_inj.1 heq)
      rw [Part.bind, if_neg h]
      exact Placeholder.fill_written_append_of_ne hname.2 hpart hne

end

end Part

namespace Template

def spelled (parts : List Part) : List Char := parts.flatMap Part.spelled

/-- What is said for a template, in one pass from left to right. -/
def said (bindings : List (String × String)) (parts : List Part) : List Char :=
  parts.flatMap (Part.said bindings)

section
variable {parts : List Part}

/-- A `fill` of a template is a `bind` of its pieces. -/
lemma fill_spelled {b : String × String} (hname : IsPlain b.1)
    (hparts : ∀ part ∈ parts, part.IsPlain) :
    Placeholder.fill b.1.toList b.2.toList (spelled parts) = spelled (parts.map (Part.bind b)) := by
  induction parts with
  | nil => exact Placeholder.fill_nil _ _
  | cons part parts ih =>
    obtain ⟨hpart, hrest⟩ := List.forall_mem_cons.1 hparts
    rw [spelled, List.flatMap_cons, Part.fill_spelled_append hname hpart]
    rw [spelled] at ih
    rw [ih hrest]
    rfl

/-- A `bind` with a value free of braces keeps a template free of braces. -/
lemma isPlain_map_bind {b : String × String} (hvalue : IsPlain b.2)
    (hparts : ∀ part ∈ parts, part.IsPlain) : ∀ part ∈ parts.map (Part.bind b), part.IsPlain := by
  intro part hpart
  obtain ⟨part, hmem, rfl⟩ := List.mem_map.1 hpart
  exact (hparts part hmem).bind hvalue

lemma said_nil : said [] parts = spelled parts := by
  have hparts : Part.said [] = Part.spelled := funext fun _ => Part.said_nil
  rw [said, hparts, spelled]

lemma said_cons {b : String × String} (bindings : List (String × String)) :
    said (b :: bindings) parts = said bindings (parts.map (Part.bind b)) := by
  have hparts : Part.said (b :: bindings) = Part.said bindings ∘ Part.bind b :=
    funext fun _ => Part.said_cons bindings
  rw [said, hparts, said, List.flatMap_map]
  rfl

end

end Template

end VoiceTurn
