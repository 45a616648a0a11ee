import Mathlib.Data.List.Forall2
import Mathlib.Data.List.Nodup
import Mathlib.Data.List.Perm.Subperm
import Mathlib.Data.List.TakeWhile
import VoiceTurn.Proofs.Json.Objects
import VoiceTurn.Proofs.Json.Quoting

/-!
# Documents that are written and read back

Records are written as objects of texts, flags, words and further objects, with their members in any
order (`Value.IsWritingOf`). The text of such a document is read as its tree (`Tree.read?_text`),
and as the value that it was written for (`Value.IsWritingOf.read?_text`).
-/

namespace VoiceTurn.Json

namespace Value

mutual

/-- The tree of the `text` of a value. -/
def tree : Value → Tree
  | .null => .null
  | .bool b => .bool b
  | .number n => .number ((Numeral.ofWord? (numberText n)).getD (.ofNat 0))
  | .string s => .string (some s)
  | .array vs => .array (itemsTree vs)
  | .object ms => .object (membersTree ms)

def itemsTree : List Value → List Tree
  | [] => []
  | v :: vs => v.tree :: itemsTree vs

def membersTree : List (String × Value) → List (Option String × Tree)
  | [] => []
  | (k, v) :: ms => (some k, v.tree) :: membersTree ms

end

/-- A value is written as another one when they are equal up to the order in which objects have
their members. Only what records are made of is written: objects, texts, flags and words. -/
inductive IsWritingOf : Value → Value → Prop
  | flag (b : Bool) : IsWritingOf (.bool b) (.bool b)
  | text (s : String) : IsWritingOf (.string s) (.string s)
  | word {n : Nat} (h : n < UInt64.size) : IsWritingOf (.ofNat n) (.ofNat n)
  | object {ms ms' : List (String × Value)} (hnodup : (ms.map Prod.fst).Nodup)
      (hkeys : (ms.map Prod.fst).Perm (ms'.map Prod.fst))
      (h : ∀ k v w, (k, v) ∈ ms → (k, w) ∈ ms' → IsWritingOf v w) :
      IsWritingOf (.object ms) (.object ms')

/-- The values that records are made of, with their objects in order: the members come in the order
of their keys, all keys are as `IsKey` has it, and at most `depth` objects are nested. -/
inductive IsNeat (IsKey : String → Prop) : Nat → Value → Prop
  | flag {depth : Nat} (b : Bool) : IsNeat IsKey depth (.bool b)
  | text {depth : Nat} (s : String) : IsNeat IsKey depth (.string s)
  | word {depth n : Nat} (h : n < UInt64.size) : IsNeat IsKey depth (.ofNat n)
  | object {depth : Nat} {ms : List (String × Value)}
      (hsorted : ms.Pairwise fun a b => a.1 < b.1) (hkeys : ∀ m ∈ ms, IsKey m.1)
      (h : ∀ m ∈ ms, IsNeat IsKey depth m.2) : IsNeat IsKey (depth + 1) (.object ms)

end Value

/-! ## Tokens -/

namespace Token

def isBreak (c : Char) : Bool := isSpace c || c = '"' || (punctuation? c).isSome

/-- A text that can stand behind a word: it is empty or begins with a character that `isBreak`. -/
def EndsWord (rest : List Char) : Prop := ∀ c ∈ rest.head?, isBreak c

variable {w rest : List Char} {t : Token} {tokens : List Token}

/-- In a word, a character that `isBreak` is read as if the word had been completed before. -/
lemma step?_word (read : List Char) (tokens : List Token) (c : Char) :
    step? (.word read) tokens c =
      if isBreak c then (ofWord? read.reverse).bind fun t => step? .between (t :: tokens) c
      else some (.word (c :: read), tokens) := rfl

lemma readFrom?_word_append (read : List Char) (hchars : w.any isBreak = false) :
    readFrom? (.word read) tokens (w ++ rest) =
      readFrom? (.word (w.reverse ++ read)) tokens rest := by
  induction w generalizing read with
  | nil => rfl
  | cons c w ih =>
    obtain ⟨hc, hw⟩ := Bool.or_eq_false_iff.1 hchars
    have hstep : step? (.word read) tokens c = some (.word (c :: read), tokens) := by
      rw [step?_word, hc]
      rfl
    rw [List.cons_append, readFrom?_cons hstep, ih _ hw, List.reverse_cons, List.append_assoc]
    rfl

/-- A word is read as its token when something else follows it. -/
lemma readFrom?_word (hw : w ≠ []) (hchars : w.any isBreak = false) (ht : ofWord? w = some t)
    (hrest : EndsWord rest) :
    readFrom? .between tokens (w ++ rest) = readFrom? .between (t :: tokens) rest := by
  obtain ⟨c, cs, rfl⟩ := List.exists_cons_of_ne_nil hw
  obtain ⟨hc, hcs⟩ := Bool.or_eq_false_iff.1 hchars
  have hstart : step? .between tokens c = some (.word [c], tokens) := by
    simp only [isBreak, Bool.or_eq_false_iff, decide_eq_false_iff_not, Option.isSome_eq_false_iff,
      Option.isNone_iff_eq_none] at hc
    obtain ⟨⟨hspace, hquote⟩, hpunctuation⟩ := hc
    rw [step?, start?, hspace, if_neg Bool.false_ne_true, if_neg hquote, hpunctuation]
  rw [List.cons_append, readFrom?_cons hstart, readFrom?_word_append _ hcs]
  have hread : (cs.reverse ++ [c]).reverse = c :: cs := by simp
  cases rest with
  | nil =>
    rw [readFrom?, readFrom?, hread, ht]
    rfl
  | cons d rest =>
    have hstep : step? (.word (cs.reverse ++ [c])) tokens d = step? .between (t :: tokens) d := by
      rw [step?_word, hrest d rfl, hread, ht]
      rfl
    rw [readFrom?, readFrom?, hstep]

/-! ### Numbers -/

lemma isBreak_eq_false_of_isDigit {c : Char} (h : c.isDigit) : isBreak c = false := by
  have hne {d : Char} (hd : d.isDigit = false) : c ≠ d := by
    rintro rfl
    rw [h] at hd
    cases hd
  have hpunctuation : punctuation? c = none := by
    unfold punctuation?
    split
    case h_7 => rfl
    all_goals exact absurd rfl (hne (by decide))
  have hspace : isSpace c = false := by
    simp only [isSpace, Bool.or_eq_false_iff, decide_eq_false_iff_not]
    exact ⟨⟨⟨hne (by decide), hne (by decide)⟩, hne (by decide)⟩, hne (by decide)⟩
  rw [isBreak, hspace, hpunctuation, decide_eq_false (hne (by decide))]
  rfl

end Token

/-! ## Numerals -/

namespace Numeral

lemma digitsValue_toDigits (n : Nat) : Decimal.digitsValue (Nat.toDigits 10 n) = n := by
  have hvalue : Decimal.digitsValue (Nat.toDigits 10 n) =
      Nat.ofDigitChars 10 (Nat.toDigits 10 n) 0 := by
    simp only [Decimal.digitsValue, Nat.ofDigitChars, Nat.mul_comm]
  rw [hvalue, Nat.ofDigitChars_ten_toDigits]

lemma head?_toDigits_ne {n : Nat} (h : 0 < n) : (Nat.toDigits 10 n).head? ≠ some '0' := by
  induction n using Nat.strongRecOn with
  | ind n ih =>
    by_cases hn : n < 10
    · rw [Nat.toDigits_of_lt_base hn]
      have hdigits : ∀ n < 10, 0 < n → [Nat.digitChar n].head? ≠ some '0' := by decide
      exact hdigits n hn h
    · rw [Nat.toDigits_of_base_le (by decide) (Nat.not_lt.1 hn),
        List.head?_append_of_ne_nil _ Nat.toDigits_ne_nil]
      exact ih (n / 10) (Nat.div_lt_self h (by decide)) (by omega)

lemma ofWord?_toDigits (n : Nat) : ofWord? (Nat.toDigits 10 n) = some (ofNat n) := by
  have hdigits : ∀ c ∈ Nat.toDigits 10 n, c.isDigit = true := fun c hc =>
    Nat.isDigit_of_mem_toDigits (by decide) (by decide) hc
  have htake : (Nat.toDigits 10 n).takeWhile Char.isDigit = Nat.toDigits 10 n :=
    List.takeWhile_eq_self_iff.2 hdigits
  have hdrop : (Nat.toDigits 10 n).dropWhile Char.isDigit = [] :=
    List.dropWhile_eq_nil_iff.2 hdigits
  have hfit : ((Nat.toDigits 10 n).isEmpty ||
      (decide ((Nat.toDigits 10 n).head? = some '0') && decide ((Nat.toDigits 10 n).length > 1))) =
      false := by
    rcases Nat.eq_zero_or_pos n with rfl | hpos
    · decide
    · rw [decide_eq_false (head?_toDigits_ne hpos), Bool.false_and, Bool.or_false]
      exact Bool.eq_false_iff.2 fun hempty => Nat.toDigits_ne_nil (List.isEmpty_iff.1 hempty)
  unfold ofWord?
  split
  rename_i negative cs hsign
  split at hsign
  · -- a minus sign is no digit
    rename_i hminus
    have hdigit := hdigits '-' (hminus ▸ List.mem_cons_self)
    cases hdigit
  · obtain ⟨rfl, rfl⟩ := Prod.mk.inj hsign
    simp only [htake, hdrop, hfit]
    rfl

lemma number?_ofNat {n : Nat} (h : n < UInt64.size) : (ofNat n).number? = some (.int n) := by
  have hmagnitude : Decimal.digitsValue (ofNat n).whole = n := digitsValue_toDigits n
  have hmax : n ≤ maxSignificand := Nat.le_pred_of_lt h
  rw [number?, hmagnitude]
  exact if_pos hmax

end Numeral

namespace Token

lemma ofWord?_toDigits (n : Nat) : ofWord? (Nat.toDigits 10 n) = some (.number (.ofNat n)) := by
  have hdigits : (Nat.toDigits 10 n).all Char.isDigit = true := List.all_eq_true.2 fun c hc =>
    Nat.isDigit_of_mem_toDigits (by decide) (by decide) hc
  have hword (word : List Char) (hletter : word.all Char.isDigit = false) :
      String.ofList (Nat.toDigits 10 n) ≠ String.ofList word := by
    intro h
    rw [String.ofList_injective h, hletter] at hdigits
    cases hdigits
  unfold ofWord?
  split
  · rename_i h
    exact absurd h (hword "null".toList (by decide))
  · rename_i h
    exact absurd h (hword "true".toList (by decide))
  · rename_i h
    exact absurd h (hword "false".toList (by decide))
  · rw [Numeral.ofWord?_toDigits]
    rfl

end Token

/-! ## Values -/

namespace Value

/-- The `text` of a value is read as its `tree`, whatever stands behind it. -/
def IsLegible (v : Value) : Prop :=
  ∃ tokens : List Token,
    (∀ read rest, Token.EndsWord rest →
      Token.readFrom? .between read (v.text ++ rest) =
        Token.readFrom? .between (tokens.reverse ++ read) rest) ∧
    ∀ stack rest, Tree.build? .value stack (tokens ++ rest) = Tree.build? (.after v.tree) stack rest

lemma isLegible_bool (b : Bool) : (Value.bool b).IsLegible := by
  refine ⟨[.bool b], fun read rest hrest => ?_, fun stack rest => rfl⟩
  cases b
  · exact Token.readFrom?_word (List.cons_ne_nil _ _) (by decide) (by decide) hrest
  · exact Token.readFrom?_word (List.cons_ne_nil _ _) (by decide) (by decide) hrest

lemma isLegible_string (s : String) : (Value.string s).IsLegible :=
  ⟨[.string (some s)], fun read rest _ => Token.readFrom?_quote s read rest, fun _ _ => rfl⟩

lemma text_ofNat (n : Nat) : (ofNat n).text = Nat.toDigits 10 n := by
  rw [ofNat, text, numberText, if_neg (Int.not_lt.2 (Int.natCast_nonneg n)), Int.natAbs_natCast]

lemma tree_ofNat (n : Nat) : (ofNat n).tree = .number (.ofNat n) := by
  have htext : numberText (.int n) = Nat.toDigits 10 n := text_ofNat n
  rw [ofNat, tree, htext, Numeral.ofWord?_toDigits]
  rfl

lemma isLegible_ofNat (n : Nat) : (ofNat n).IsLegible := by
  refine ⟨[.number (.ofNat n)], fun read rest hrest => ?_, fun stack rest => ?_⟩
  · rw [text_ofNat]
    have hdigits : (Nat.toDigits 10 n).any Token.isBreak = false := List.any_eq_false.2 fun c hc =>
      Bool.eq_false_iff.1 (Token.isBreak_eq_false_of_isDigit
        (Nat.isDigit_of_mem_toDigits (by decide) (by decide) hc))
    exact Token.readFrom?_word Nat.toDigits_ne_nil hdigits (Token.ofWord?_toDigits n) hrest
  · rw [tree_ofNat]
    rfl

/-- The `membersText` of an object is read one member after the other, from any place where a key is
expected. -/
lemma exists_tokens_of_members {ms : List (String × Value)} (hne : ms ≠ [])
    (h : ∀ m ∈ ms, m.2.IsLegible) :
    ∃ tokens : List Token,
      (∀ read rest, Token.readFrom? .between read (membersText ms ++ '\x7d' :: rest) =
        Token.readFrom? .between (tokens.reverse ++ read) ('\x7d' :: rest)) ∧
      ∀ place members stack rest,
        (∀ s, Tree.step? place stack (.string s) = some (.colon members s, stack)) →
        Tree.build? place stack (tokens ++ .closeObject :: rest) =
          Tree.build? (.after (.object (members.reverse ++ membersTree ms))) stack rest := by
  induction ms with
  | nil => exact absurd rfl hne
  | cons m ms ih =>
    obtain ⟨key, v⟩ := m
    obtain ⟨⟨tokens, htext, htree⟩, hms⟩ := List.forall_mem_cons.1 h
    have hkey (read : List Token) (rest : List Char) :
        Token.readFrom? .between read (quote key ++ ':' :: rest) =
          Token.readFrom? .between (.colon :: .string (some key) :: read) rest :=
      Token.readFrom?_quote key read (':' :: rest)
    -- from any place where a key is expected, the first member leads behind its value
    have hfirst (place members stack rest)
        (hplace : ∀ s, Tree.step? place stack (.string s) = some (.colon members s, stack)) :
        Tree.build? place stack (.string (some key) :: .colon :: (tokens ++ rest)) =
          Tree.build? (.after v.tree) (.object members (some key) :: stack) rest := by
      rw [Tree.build?, hplace]
      exact htree _ _
    cases ms with
    | nil =>
      refine ⟨.string (some key) :: .colon :: tokens, fun read rest => ?_,
        fun place members stack rest hplace => ?_⟩
      · rw [membersText, List.append_assoc, List.cons_append, hkey,
          htext _ _ (fun c hc => by cases hc; decide)]
        simp
      · rw [List.cons_append, List.cons_append, hfirst place members stack _ hplace]
        simp [membersTree, Tree.build?, Tree.step?, Tree.continue?]
    | cons m ms =>
      obtain ⟨tokens', htext', htree'⟩ := ih (List.cons_ne_nil _ _) hms
      refine ⟨.string (some key) :: .colon :: (tokens ++ .comma :: tokens'), fun read rest => ?_,
        fun place members stack rest hplace => ?_⟩
      · have hmembers : membersText ((key, v) :: m :: ms) ++ '\x7d' :: rest =
            quote key ++ ':' :: (v.text ++ ',' :: (membersText (m :: ms) ++ '\x7d' :: rest)) := by
          rw [show membersText ((key, v) :: m :: ms) =
            quote key ++ ':' :: v.text ++ ',' :: membersText (m :: ms) from rfl]
          simp
        have hcomma : Token.EndsWord (',' :: (membersText (m :: ms) ++ '\x7d' :: rest)) :=
          fun c hc => by cases hc; decide
        rw [hmembers, hkey, htext _ _ hcomma]
        exact (htext' _ rest).trans (by simp)
      · rw [List.cons_append, List.cons_append, List.append_assoc,
          hfirst place members stack _ hplace]
        exact (htree' (.key ((some key, v.tree) :: members)) _ stack rest fun _ => rfl).trans
          (by simp [membersTree])

lemma isLegible_object {ms : List (String × Value)} (h : ∀ m ∈ ms, m.2.IsLegible) :
    (Value.object ms).IsLegible := by
  by_cases hne : ms = []
  · subst hne
    exact ⟨[.openObject, .closeObject], fun _ _ _ => rfl, fun _ _ => rfl⟩
  · obtain ⟨tokens, htext, htree⟩ := exists_tokens_of_members hne h
    refine ⟨.openObject :: (tokens ++ [.closeObject]), fun read rest _ => ?_, fun stack rest => ?_⟩
    · have hobject : (Value.object ms).text ++ rest =
          '\x7b' :: (membersText ms ++ '\x7d' :: rest) := by
        rw [text]
        simp
      have hclose (read : List Token) : Token.readFrom? .between read ('\x7d' :: rest) =
          Token.readFrom? .between (.closeObject :: read) rest := rfl
      rw [hobject]
      exact (htext (.openObject :: read) rest).trans (by simp [hclose])
    · rw [List.cons_append, List.append_assoc]
      exact htree .firstKey [] stack rest fun _ => rfl

/-- The whole `text` of a value that `IsLegible` is read as its `tree`. -/
lemma IsLegible.read?_text {v : Value} (h : v.IsLegible) : Tree.read? v.text = some v.tree := by
  obtain ⟨tokens, htext, htree⟩ := h
  have htokens : Token.read? v.text = some tokens := by
    have hread := htext [] [] nofun
    rw [List.append_nil, List.append_nil] at hread
    exact hread.trans (congrArg some (List.reverse_reverse tokens))
  have hbuild := htree [] []
  rw [List.append_nil] at hbuild
  rw [Tree.read?, htokens]
  exact hbuild

lemma IsWritingOf.isLegible {v w : Value} (h : v.IsWritingOf w) : v.IsLegible := by
  induction h with
  | flag b => exact isLegible_bool b
  | text s => exact isLegible_string s
  | @word n _ => exact isLegible_ofNat n
  | @object ms ms' _ hkeys _ ih =>
    refine isLegible_object fun m hm => ?_
    obtain ⟨m', hm', hkey⟩ := List.mem_map.1 (hkeys.subset (List.mem_map_of_mem hm))
    exact ih m.1 m.2 m'.2 hm (hkey ▸ hm')

/-! ## Reading back -/

/-- The members of objects with the same keys come in pairs, in the order of the first object. -/
lemma exists_perm_forall₂ {R : Value → Value → Prop} {ms ms' : List (String × Value)}
    (hnodup : (ms.map Prod.fst).Nodup) (hkeys : (ms.map Prod.fst).Perm (ms'.map Prod.fst))
    (h : ∀ k v w, (k, v) ∈ ms → (k, w) ∈ ms' → R v w) :
    ∃ ws : List (String × Value), ws.Perm ms' ∧
      List.Forall₂ (fun m w => m.1 = w.1 ∧ R m.2 w.2) ms ws := by
  -- each member is paired with the one that the other object has under its key
  have hfound : ∀ m ∈ ms, (m.1, (ms'.lookup m.1).getD m.2) ∈ ms' := by
    intro m hm
    obtain ⟨m', hm', hkey⟩ := List.mem_map.1 (hkeys.subset (List.mem_map_of_mem hm))
    have hlookup : ms'.lookup m.1 = some m'.2 :=
      (Dict.lookup_eq_some_iff_mem (hkeys.nodup_iff.1 hnodup)).2 (hkey ▸ hm')
    rw [hlookup]
    exact hkey ▸ hm'
  refine ⟨ms.map fun m => (m.1, (ms'.lookup m.1).getD m.2), ?_, ?_⟩
  · have hfst : (ms.map fun m => (m.1, (ms'.lookup m.1).getD m.2)).map Prod.fst =
        ms.map Prod.fst := by
      rw [List.map_map]
      rfl
    refine List.Subperm.perm_of_length_le (List.subperm_of_subset ?_ ?_) ?_
    · exact List.Nodup.of_map Prod.fst (hfst ▸ hnodup)
    · intro w hw
      obtain ⟨m, hm, rfl⟩ := List.mem_map.1 hw
      exact hfound m hm
    · simpa using hkeys.length_eq.ge
  · rw [List.forall₂_map_right_iff, List.forall₂_same]
    exact fun m hm => ⟨rfl, h m.1 m.2 _ hm (hfound m hm)⟩

lemma ofMembers?_membersTree {depth : Nat} {ms ws : List (String × Value)}
    (h : List.Forall₂ (fun m w => m.1 = w.1 ∧ ofTree? depth m.2.tree = some w.2) ms ws) :
    ofMembers? depth (membersTree ms) = some ws := by
  induction h with
  | nil => rfl
  | @cons m w ms ws hm _ ih =>
    obtain ⟨key, v⟩ := m
    obtain ⟨key', w⟩ := w
    obtain ⟨rfl, hvalue⟩ := hm
    dsimp only at hvalue
    rw [membersTree, ofMembers?, hvalue, ih]
    rfl

/-- The tree of a value that `IsWritingOf` a neat one has the neat one as its value. -/
lemma IsWritingOf.ofTree?_tree {IsKey : String → Prop} {v w : Value} (h : v.IsWritingOf w)
    {depth : Nat} (hw : w.IsNeat IsKey depth) : ofTree? depth v.tree = some w := by
  induction h generalizing depth with
  | flag b => rfl
  | text s => rfl
  | @word n hn =>
    rw [tree_ofNat, ofTree?, Numeral.number?_ofNat hn]
    rfl
  | @object ms ms' hnodup hkeys _ ih =>
    cases hw with
    | @object depth _ hsorted _ hmembers =>
      obtain ⟨ws, hperm, hws⟩ := exists_perm_forall₂ (R := fun v w => ofTree? depth v.tree = some w)
        hnodup hkeys fun k v w hv hw => ih k v w hv hw (hmembers (k, w) hw)
      have hdict : Dict.ofList ws = ⟨ms', hsorted⟩ := Dict.ofList_eq_of_perm hperm
      rw [tree, ofTree?, if_neg (Nat.succ_ne_zero depth), Nat.succ_sub_one,
        ofMembers?_membersTree hws, Option.map_some, ofMembers_eq, hdict]

/-- A neat value `IsWritingOf` itself. -/
lemma IsNeat.isWritingOf {IsKey : String → Prop} {depth : Nat} {v : Value}
    (h : v.IsNeat IsKey depth) : v.IsWritingOf v := by
  induction h with
  | flag b => exact .flag b
  | text s => exact .text s
  | word hn => exact .word hn
  | @object depth ms hsorted _ _ ih =>
    have hnodup : (ms.map Prod.fst).Nodup := Dict.nodup_of_sorted hsorted
    refine .object hnodup (.refl _) fun k v w hv hw => ?_
    have hlookup := (Dict.lookup_eq_some_iff_mem hnodup).2 hv
    rw [(Dict.lookup_eq_some_iff_mem hnodup).2 hw] at hlookup
    obtain rfl := Option.some.inj hlookup
    exact ih _ hw

/-- Reading the text of a value that `IsWritingOf` a neat one gives the neat one. -/
theorem IsWritingOf.read?_text {IsKey : String → Prop} {v w : Value} (h : v.IsWritingOf w)
    (hw : w.IsNeat IsKey maxDepth) : read? v.text = some w := by
  rw [read?, h.isLegible.read?_text]
  exact h.ofTree?_tree hw

end Value

end VoiceTurn.Json
