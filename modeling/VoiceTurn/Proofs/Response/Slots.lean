import VoiceTurn.Proofs.Json.Quoting
import VoiceTurn.Proofs.Line.Codec
import VoiceTurn.Proofs.Text.Skeleton
import VoiceTurn.Response.Composer

/-!
# Values in sentences

The value of a slot is put between texts that are fixed by the template and the values before it.
The placeholders that come later, those of the values after it and `intent` and `text`, are filled
in what has then become one text: a value in which one of them occurs is changed
(`Composer.placeholder_in_value_is_filled`). Every other value stands in the sentence as it is
given, and the rest of the sentence does not depend on it (`Composer.value_stands_as_given`).
-/

namespace VoiceTurn.Response

open Json (Token Value)

namespace Composer

section
variable {v : List Char} {later : List (String × String)} {s : List (List Char)}

/-- The texts between which a value is put, when those before it have been filled in. -/
def aroundValue (c : Composer) (name : String) (before : List (String × String)) (key : String) :
    List (List Char) :=
  Placeholder.around key.toList (fillAll before (c.templateFor name).toList)

/-- None of the placeholders that are filled one after the other has an occurrence that reaches into
a hole of the skeleton `s` with `v` in its holes. -/
def LeavesAlone (v : List Char) (later : List (String × String)) (s : List (List Char)) : Prop :=
  ∀ done b rest, later = done ++ b :: rest →
    Placeholder.IsApart b.1.toList v (s.map (fillAll done))

lemma map_fillAll_cons (b : String × String) (bs : List (String × String)) :
    s.map (fillAll (b :: bs)) =
      (s.map (Placeholder.fill b.1.toList b.2.toList)).map (fillAll bs) := by
  rw [List.map_map]
  rfl

/-- What `LeavesAlone` says stays, and everything is filled in around it. -/
lemma fillAll_intercalate (h : LeavesAlone v later s) :
    fillAll later (v.intercalate s) = v.intercalate (s.map (fillAll later)) := by
  have hnil (s : List (List Char)) : s.map (fillAll []) = s := List.map_id s
  induction later generalizing s with
  | nil =>
    rw [hnil]
    rfl
  | cons b later ih =>
    -- what is filled in first changes the texts, and the rest is judged by those
    have hfirst : Placeholder.IsApart b.1.toList v s := by
      have hapart := h [] b later rfl
      rwa [hnil] at hapart
    have hrest : LeavesAlone v later (s.map (Placeholder.fill b.1.toList b.2.toList)) := by
      intro done b' rest hlater
      rw [← map_fillAll_cons]
      exact h (b :: done) b' rest (by rw [hlater, List.cons_append])
    rw [fillAll_cons, Placeholder.fill_intercalate hfirst, ih hrest, map_fillAll_cons]

/-! ## Closed braces -/

lemma isBraced_fillAll {bs : List (String × String)} {text : List Char}
    (hbs : ∀ b ∈ bs, '{' ∉ b.2.toList) (h : Placeholder.IsBraced text) :
    Placeholder.IsBraced (fillAll bs text) := by
  induction bs generalizing text with
  | nil => exact h
  | cons b bs ih =>
    obtain ⟨hb, hrest⟩ := List.forall_mem_cons.1 hbs
    exact ih hrest (Placeholder.isBraced_fill hb h)

/-- Nothing reaches into a hole of a skeleton that `IsBraced`, when no value opens a brace but
perhaps the last one that is filled in. -/
lemma leavesAlone_of_isBraced {last : String × String} (hv : '{' ∉ v)
    (hlater : ∀ b ∈ later, '}' ∉ b.1.toList ∧ '{' ∉ b.2.toList)
    (hlast : '}' ∉ last.1.toList) (hs : ∀ l ∈ s, Placeholder.IsBraced l) :
    LeavesAlone v (later ++ [last]) s := by
  intro done b rest hsplit
  have hb : '}' ∉ b.1.toList := by
    have hmem : b ∈ later ++ [last] := hsplit ▸ List.mem_append_right done List.mem_cons_self
    rcases List.mem_append.1 hmem with hmem | hmem
    · exact (hlater b hmem).1
    · rwa [List.mem_singleton.1 hmem]
  -- the last one is never among those that have been filled in before another
  have hdone : later = done ++ (b :: rest).dropLast := by
    rw [← List.dropLast_append_of_ne_nil (List.cons_ne_nil b rest), ← hsplit, List.dropLast_concat]
  apply Placeholder.isApart_of_isBraced hb hv
  intro l hl
  obtain ⟨text, htext, rfl⟩ := List.mem_map.1 hl
  refine isBraced_fillAll (fun b hb => (hlater b ?_).2) (hs text htext)
  rw [hdone]
  exact List.mem_append_left _ hb

end

end Composer

/-! ## Payloads with one slot -/

namespace Intent

/-- A payload that names an intent with one slot. -/
def payloadOf (name text key v : String) : Bytes :=
  Utf8.encode (Value.object [("intent", .string name), ("slots", .object [(key, .string v)]),
    ("text", .string text)]).render

lemma read?_payloadOf (name text key v : String) :
    read? (payloadOf name text key v) = some ⟨name, text, [(key, v)]⟩ := by
  have hopen (ts : List Token) (cs : List Char) :
      Token.readFrom? .between ts ('{' :: cs) =
        Token.readFrom? .between (.openObject :: ts) cs := rfl
  have hclose (ts : List Token) (cs : List Char) :
      Token.readFrom? .between ts ('}' :: cs) =
        Token.readFrom? .between (.closeObject :: ts) cs := rfl
  have hcolon (ts : List Token) (cs : List Char) :
      Token.readFrom? .between ts (':' :: cs) = Token.readFrom? .between (.colon :: ts) cs := rfl
  have hcomma (ts : List Token) (cs : List Char) :
      Token.readFrom? .between ts (',' :: cs) = Token.readFrom? .between (.comma :: ts) cs := rfl
  have htokens : Token.read? (Value.object [("intent", .string name),
      ("slots", .object [(key, .string v)]), ("text", .string text)]).text =
      some [.openObject, .string (some "intent"), .colon, .string (some name), .comma,
        .string (some "slots"), .colon, .openObject, .string (some key), .colon,
        .string (some v), .closeObject, .comma, .string (some "text"), .colon,
        .string (some text), .closeObject] := by
    simp only [Token.read?, Value.text, Value.membersText, List.append_assoc, List.cons_append,
      List.nil_append, hopen, hclose, hcolon, hcomma, Token.readFrom?_quote]
    rfl
  rw [read?, payloadOf, Utf8.decode?_encode, Option.bind_eq_bind, Option.bind_some, Value.render,
    String.toList_ofList, Value.read?, Json.Tree.read?, htokens]
  rfl

end Intent

namespace Composer

section
variable {c : Composer} {name text key v : String} {before after : List (String × String)}

/-- A sentence is what the later placeholders make of the value between `aroundValue`. -/
lemma compose_eq_of_read? {payload : Bytes}
    (hread : Intent.read? payload = some ⟨name, text, before ++ (key, v) :: after⟩) :
    c.compose payload = if name.toList.isEmpty then c.fallback
      else String.ofList (fillAll (after ++ [("intent", name), ("text", text)])
        (v.toList.intercalate (c.aroundValue name before key))) := by
  simp only [compose, hread, bindings, List.append_assoc, List.cons_append]
  rw [fillAll_append, fillAll_cons, Placeholder.fill_eq_intercalate]
  rfl

/-- A value that opens no brace is left alone, if the other values but the text of the intent open
none either, and the template `IsBraced`. -/
lemma leavesAlone_aroundValue (htemplate : Placeholder.IsBraced (c.templateFor name).toList)
    (hbefore : ∀ b ∈ before, '{' ∉ b.2.toList)
    (hafter : ∀ b ∈ after, '}' ∉ b.1.toList ∧ '{' ∉ b.2.toList)
    (hname : '{' ∉ name.toList) (hv : '{' ∉ v.toList) :
    LeavesAlone v.toList (after ++ [("intent", name), ("text", text)])
      (c.aroundValue name before key) := by
  have hlater : ∀ b ∈ after ++ [("intent", name)], '}' ∉ b.1.toList ∧ '{' ∉ b.2.toList := by
    intro b hb
    rcases List.mem_append.1 hb with hb | hb
    · exact hafter b hb
    · obtain rfl := List.mem_singleton.1 hb
      have hintent : '}' ∉ "intent".toList := by decide
      exact ⟨hintent, hname⟩
  have htext : '}' ∉ "text".toList := by decide
  have hsplit : after ++ [("intent", name), ("text", text)] =
      after ++ [("intent", name)] ++ [("text", text)] := by
    rw [List.append_assoc, List.singleton_append]
  rw [hsplit]
  exact leavesAlone_of_isBraced hv hlater htext
    (Placeholder.isBraced_around (isBraced_fillAll hbefore htemplate))

end

/-- For each slot there is a skeleton, `aroundValue` with everything else filled in, between whose
texts its value stands as it is given, for every value that the later placeholders leave alone
(`LeavesAlone`). They do when the value opens no brace, the template `IsBraced`, and of the other
values only the text of the intent opens one. -/
theorem value_stands_as_given (p : Phrases) (name text key : String)
    (before after : List (String × String)) :
    ∃ skeleton : List (List Char),
      (name ≠ "" → skeleton = ((ofPhrases p).aroundValue name before key).map
        (fillAll (after ++ [("intent", name), ("text", text)]))) ∧
      ∀ v payload, Intent.read? payload = some ⟨name, text, before ++ (key, v) :: after⟩ →
        (LeavesAlone v.toList (after ++ [("intent", name), ("text", text)])
            ((ofPhrases p).aroundValue name before key) →
          (ofPhrases p).compose payload = String.ofList (v.toList.intercalate skeleton)) ∧
        (Placeholder.IsBraced ((ofPhrases p).templateFor name).toList →
          (∀ b ∈ before, '{' ∉ b.2.toList) →
          (∀ b ∈ after, '}' ∉ b.1.toList ∧ '{' ∉ b.2.toList) →
          '{' ∉ name.toList → '{' ∉ v.toList →
          (ofPhrases p).compose payload = String.ofList (v.toList.intercalate skeleton)) := by
  by_cases hname : name.toList.isEmpty = true
  · -- the sentence for payloads without an intent has no holes
    have hempty : name = "" := String.toList_eq_nil_iff.1 (List.isEmpty_iff.1 hname)
    refine ⟨[p.fallback.toList], fun hne => absurd hempty hne, fun v payload hread => ?_⟩
    have hfallback : (ofPhrases p).compose payload =
        String.ofList (v.toList.intercalate [p.fallback.toList]) := by
      rw [compose_eq_of_read? hread, if_pos hname, List.intercalate_singleton,
        String.ofList_toList]
      rfl
    exact ⟨fun _ => hfallback, fun _ _ _ _ _ => hfallback⟩
  · refine ⟨((ofPhrases p).aroundValue name before key).map
      (fillAll (after ++ [("intent", name), ("text", text)])), fun _ => rfl,
      fun v payload hread => ?_⟩
    have hsentence (halone : LeavesAlone v.toList (after ++ [("intent", name), ("text", text)])
        ((ofPhrases p).aroundValue name before key)) :
        (ofPhrases p).compose payload = String.ofList (v.toList.intercalate
          (((ofPhrases p).aroundValue name before key).map
            (fillAll (after ++ [("intent", name), ("text", text)])))) := by
      rw [compose_eq_of_read? hread, if_neg hname, fillAll_intercalate halone]
    refine ⟨hsentence, fun htemplate hbefore hafter hopen hv => hsentence ?_⟩
    exact leavesAlone_aroundValue htemplate hbefore hafter hopen hv

/-- The own placeholder of a value is not filled in it, and a value may close braces. -/
theorem value_stands_as_given_for_lights :
    let p : Phrases := { templates := Dict.ofList [("SetLight", "Turning on \x7bname\x7d")] }
    ∃ skeleton : List (List Char), skeleton = ["Turning on ".toList, []] ∧
      (ofPhrases p).compose (Intent.payloadOf "SetLight" "dark" "name" "\x7bname\x7d") =
        String.ofList ("\x7bname\x7d".toList.intercalate skeleton) ∧
      (ofPhrases p).compose (Intent.payloadOf "SetLight" "dark" "name" "lamp\x7d") =
        String.ofList ("lamp\x7d".toList.intercalate skeleton) := by
  intro p
  obtain ⟨skeleton, htexts, hskeleton⟩ := value_stands_as_given p "SetLight" "dark" "name" [] []
  obtain ⟨hown, -⟩ := hskeleton "\x7bname\x7d" _ (Intent.read?_payloadOf _ _ _ _)
  obtain ⟨-, hclosing⟩ := hskeleton "lamp\x7d" _ (Intent.read?_payloadOf _ _ _ _)
  refine ⟨skeleton, (htexts (by decide)).trans ?_, hown ?_, hclosing ?_ ?_ ?_ ?_ ?_⟩
  · decide +kernel
  · -- neither of the two placeholders that are still to come occurs
    intro done b rest hsplit
    apply Placeholder.isApart_of_not_isInfix
    rcases done with _ | ⟨d, _ | ⟨d', done⟩⟩
    · obtain ⟨rfl, -⟩ := List.cons.inj hsplit
      decide +kernel
    · obtain ⟨rfl, hrest⟩ := List.cons.inj hsplit
      obtain ⟨rfl, -⟩ := List.cons.inj hrest
      decide +kernel
    · simp at hsplit
  all_goals decide +kernel

/-- A placeholder in a value is filled when its turn comes, so there are no texts between which all
values stand as they are given. -/
theorem placeholder_in_value_is_filled :
    let p : Phrases := { templates := Dict.ofList [("SetLight", "Turning on \x7bname\x7d")] }
    (ofPhrases p).compose (Intent.payloadOf "SetLight" "dark" "name" "\x7btext\x7d") =
      "Turning on dark" ∧
    ¬ ∃ skeleton : List (List Char), ∀ v payload,
      Intent.read? payload = some ⟨"SetLight", "dark", [("name", v)]⟩ →
      (ofPhrases p).compose payload = String.ofList (v.toList.intercalate skeleton) := by
  intro p
  have hcompose (v : String) :
      (ofPhrases p).compose (Intent.payloadOf "SetLight" "dark" "name" v) =
        String.ofList (fillAll (bindings ⟨"SetLight", "dark", [("name", v)]⟩)
          ((ofPhrases p).templateFor "SetLight").toList) := by
    simp only [compose, Intent.read?_payloadOf]
    exact if_neg (by decide)
  have hfilled :
      (ofPhrases p).compose (Intent.payloadOf "SetLight" "dark" "name" "\x7btext\x7d") =
        "Turning on dark" := by
    rw [hcompose]
    decide +kernel
  refine ⟨hfilled, ?_⟩
  rintro ⟨skeleton, hskeleton⟩
  -- the length of the sentence would grow by as much for each character of the value
  have hlength (v : String) {sentence : String}
      (h : (ofPhrases p).compose (Intent.payloadOf "SetLight" "dark" "name" v) = sentence) :
      sentence.toList.length =
        (skeleton.map List.length).sum + (skeleton.length - 1) * v.toList.length := by
    rw [← h, hskeleton v _ (Intent.read?_payloadOf _ _ _ _), String.toList_ofList,
      Placeholder.length_intercalate]
  have hnone : (ofPhrases p).compose (Intent.payloadOf "SetLight" "dark" "name" "") =
      "Turning on " := by
    rw [hcompose]
    decide +kernel
  have hlamp : (ofPhrases p).compose (Intent.payloadOf "SetLight" "dark" "name" "lamp") =
      "Turning on lamp" := by
    rw [hcompose]
    decide +kernel
  have hshort : 11 = (skeleton.map List.length).sum + (skeleton.length - 1) * 0 := hlength "" hnone
  have hplain : 15 = (skeleton.map List.length).sum + (skeleton.length - 1) * 4 :=
    hlength "lamp" hlamp
  have hlong : 15 = (skeleton.map List.length).sum + (skeleton.length - 1) * 6 :=
    hlength "\x7btext\x7d" hfilled
  omega

end Composer

end VoiceTurn.Response
