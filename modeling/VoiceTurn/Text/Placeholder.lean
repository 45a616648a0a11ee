/-!
# Placeholders

A placeholder is a name between braces. `fill` replaces every occurrence of one placeholder in a
text, from left to right; what it inserts is not looked at again.
-/

namespace VoiceTurn.Placeholder

/-- Replaces every occurrence of the placeholder `name` by `value`. -/
def fill (name value : List Char) : List Char → List Char
  | [] => []
  | c :: cs =>
    if c = '{' ∧ (name ++ ['}']).isPrefixOf cs then
      value ++ fill name value (cs.drop (name.length + 1))
    else c :: fill name value cs
termination_by cs => cs.length
decreasing_by all_goals simp +arith

/-- The placeholder as it is written in a template. -/
def written (name : List Char) : List Char := '{' :: name ++ ['}']

theorem fill_nil (name value : List Char) : fill name value [] = [] := by
  rw [fill]

/-- A text without an opening brace holds no placeholder, and `fill` leaves it as it is. -/
theorem fill_append_of_not_mem {name value cs rest : List Char} (h : '{' ∉ cs) :
    fill name value (cs ++ rest) = cs ++ fill name value rest := by
  induction cs with
  | nil => rfl
  | cons c cs ih =>
    obtain ⟨hc, hcs⟩ : ¬ '{' = c ∧ '{' ∉ cs := by simpa using h
    rw [List.cons_append, fill, if_neg (fun hb => hc hb.1.symm), ih hcs, List.cons_append]

/-- The placeholder as it is `written` is replaced by the value. -/
theorem fill_written_append (name value rest : List Char) :
    fill name value (written name ++ rest) = value ++ fill name value rest := by
  have hb : (name ++ ['}']).isPrefixOf (name ++ '}' :: rest) = true := by
    rw [List.isPrefixOf_iff_prefix]
    exact ⟨rest, by simp⟩
  have hd : (name ++ '}' :: rest).drop (name.length + 1) = rest := by
    simp [List.drop_append]
  simp only [written, List.cons_append, List.append_assoc, List.nil_append]
  rw [fill, if_pos ⟨rfl, hb⟩, hd]

end VoiceTurn.Placeholder
