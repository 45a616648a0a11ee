import Mathlib.Tactic.Lemma
import Mathlib.Tactic.SplitIfs
import VoiceTurn.Json.Value

/-!
# Strings in documents

What is written for a string is read as that string (`Token.readFrom?_quote`). Every character is
written as one piece of a string: as itself, or as an escape that stands for it. The pieces are read
one after the other, so the whole follows from what is read for one character
(`Token.readFrom?_escape`). No control character is ever written (`Value.le_toNat_of_mem_quote`).
-/

namespace VoiceTurn.Json

/-! ## Pieces that stand for a character -/

/-- A piece stands for a character, whatever pieces follow it. -/
def Piece.Spells (p : Piece) (c : Char) : Prop :=
  ∀ ps, Piece.text? (p :: ps) = (Piece.text? ps).map (c :: ·)

lemma Piece.spells_char (c : Char) : (Piece.char c).Spells c := by
  intro ps
  rfl

/-- A `unit` below the surrogates stands for the character of its number. -/
lemma Piece.spells_unit {c : Char} (h : c.toNat < 0xD800) : (Piece.unit c.toNat).Spells c := by
  intro ps
  have hhigh : ¬ (0xD800 ≤ c.toNat ∧ c.toNat < 0xDC00) := by omega
  have hlow : ¬ (0xDC00 ≤ c.toNat ∧ c.toNat < 0xE000) := by omega
  -- the next piece is looked at only after a unit of the surrogate range
  rw [Piece.text?.eq_def]
  simp only [if_neg hhigh, if_neg hlow, Char.ofNat_toNat]

namespace Token

/-! ## Reading what has been written -/

section
variable {p p' : Place} {tokens tokens' : List Token} {c : Char} {cs : List Char}

lemma readFrom?_cons (h : step? p tokens c = some (p', tokens')) :
    readFrom? p tokens (c :: cs) = readFrom? p' tokens' cs := by
  rw [readFrom?, h]

/-- The digits of an escape are read as what they are worth. -/
lemma hexDigit?_digitChar : ∀ n < 16, hexDigit? (Nat.digitChar n) = some n := by
  decide

/-- The four `unitDigits` of a control character are read as its number. -/
lemma readFrom?_unitDigits {n : Nat} (hn : n < 0x20) (ps : List Piece) :
    readFrom? (.unit ps 4 0) tokens (Value.unitDigits n ++ cs) =
      readFrom? (.text (.unit n :: ps)) tokens cs := by
  have hhigh : hexDigit? (Nat.digitChar (n / 16)) = some (n / 16) :=
    hexDigit?_digitChar _ (by omega)
  have hlow : hexDigit? (Nat.digitChar (n % 16)) = some (n % 16) :=
    hexDigit?_digitChar _ (by omega)
  have hvalue : n / 16 * 16 + n % 16 = n := Nat.div_add_mod' n 16
  have hthird (value : Nat) : step? (.unit ps 2 value) tokens (Nat.digitChar (n / 16)) =
      some (.unit ps 1 (value * 16 + n / 16), tokens) := by
    rw [step?, hhigh]
    rfl
  have hfourth (value : Nat) : step? (.unit ps 1 value) tokens (Nat.digitChar (n % 16)) =
      some (.text (.unit (value * 16 + n % 16) :: ps), tokens) := by
    rw [step?, hlow]
    rfl
  calc
    _ = readFrom? (.unit ps 2 0) tokens
          (Nat.digitChar (n / 16) :: Nat.digitChar (n % 16) :: cs) := rfl
    _ = readFrom? (.text (.unit ((0 * 16 + n / 16) * 16 + n % 16) :: ps)) tokens cs := by
      rw [readFrom?_cons (hthird 0), readFrom?_cons (hfourth _)]
    _ = _ := by rw [Nat.zero_mul, Nat.zero_add, hvalue]

/-- What `escape` writes for a character is read as one piece that `Spells` it. -/
lemma readFrom?_escape (c : Char) (ps : List Piece) (tokens : List Token) (cs : List Char) :
    ∃ piece : Piece, piece.Spells c ∧
      readFrom? (.text ps) tokens (Value.escape c ++ cs) =
        readFrom? (.text (piece :: ps)) tokens cs := by
  unfold Value.escape
  split_ifs with hquote hslash hback hfeed hline hreturn htab hcontrol
  -- the seven characters with a short escape
  iterate 7
    subst c
    exact ⟨_, Piece.spells_char _, rfl⟩
  · -- the other control characters are written by their numbers
    have hsmall : c.toNat < 0xD800 := by omega
    refine ⟨.unit c.toNat, Piece.spells_unit hsmall, ?_⟩
    exact readFrom?_unitDigits hcontrol ps
  · -- everything else is written as it is
    refine ⟨.char c, Piece.spells_char c, readFrom?_cons ?_⟩
    rw [step?, if_neg hquote, if_neg hslash, if_neg hcontrol]

/-- What `escape` writes for some characters is read as pieces that spell them. -/
lemma readFrom?_flatMap_escape (s : List Char) (ps : List Piece) (tokens : List Token)
    (cs : List Char) :
    ∃ pieces : List Piece, Piece.text? pieces = some s ∧
      readFrom? (.text ps) tokens (s.flatMap Value.escape ++ cs) =
        readFrom? (.text (pieces.reverse ++ ps)) tokens cs := by
  induction s generalizing ps with
  | nil => exact ⟨[], rfl, rfl⟩
  | cons c s ih =>
    obtain ⟨piece, hspells, hfirst⟩ := readFrom?_escape c ps tokens (s.flatMap Value.escape ++ cs)
    obtain ⟨pieces, htext, hrest⟩ := ih (piece :: ps)
    refine ⟨piece :: pieces, ?_, ?_⟩
    · rw [hspells, htext]
      rfl
    · rw [List.flatMap_cons, List.append_assoc, hfirst, hrest, List.reverse_cons,
        List.append_assoc]
      rfl

/-- What `quote` writes is read as the token of the string. -/
lemma readFrom?_quote (s : String) (tokens : List Token) (cs : List Char) :
    readFrom? .between tokens (Value.quote s ++ cs) =
      readFrom? .between (.string (some s) :: tokens) cs := by
  obtain ⟨pieces, htext, hread⟩ := readFrom?_flatMap_escape s.toList [] tokens ('"' :: cs)
  have hstring : Piece.string? (pieces.reverse ++ []).reverse = some s := by
    rw [List.append_nil, List.reverse_reverse, Piece.string?, htext, Option.map_some,
      String.ofList_toList]
  calc
    _ = readFrom? (.text []) tokens (s.toList.flatMap Value.escape ++ '"' :: cs) := by
      rw [Value.quote, List.cons_append, List.cons_append, List.append_assoc]
      rfl
    _ = readFrom? (.text (pieces.reverse ++ [])) tokens ('"' :: cs) := hread
    _ = readFrom? .between (.string (some s) :: tokens) cs := by
      rw [← hstring]
      rfl

end

end Token

namespace Value

/-- An object of one string is read back from its text. -/
theorem read?_text_of_string (key s : String) :
    read? (Value.object [(key, .string s)]).text = some (.object [(key, .string s)]) := by
  have htokens : Token.read? (Value.object [(key, .string s)]).text =
      some [.openObject, .string (some key), .colon, .string (some s), .closeObject] := by
    calc
      _ = Token.readFrom? .between [.openObject]
            (quote key ++ (':' :: (quote s ++ ['\x7d']))) := by
        rw [Token.read?, text, membersText, text, List.cons_append, List.append_assoc]
        rfl
      _ = Token.readFrom? .between [.string (some key), .openObject]
            (':' :: (quote s ++ ['\x7d'])) := Token.readFrom?_quote key _ _
      _ = Token.readFrom? .between [.colon, .string (some key), .openObject]
            (quote s ++ ['\x7d']) := rfl
      _ = Token.readFrom? .between
            [.string (some s), .colon, .string (some key), .openObject] ['\x7d'] :=
        Token.readFrom?_quote s _ _
      _ = _ := rfl
  rw [read?, Tree.read?, htokens]
  rfl

/-! ## Characters that are written -/

lemma le_toNat_digitChar : ∀ n < 16, 0x20 ≤ (Nat.digitChar n).toNat := by
  decide

/-- No control character is written by `escape`. -/
lemma le_toNat_of_mem_escape {c d : Char} (h : d ∈ escape c) : 0x20 ≤ d.toNat := by
  unfold escape at h
  split_ifs at h with _ _ _ _ _ _ _ hcontrol
  iterate 7
    simp only [List.mem_cons, List.not_mem_nil, or_false] at h
    rcases h with rfl | rfl <;> decide
  · have hhigh := le_toNat_digitChar (c.toNat / 16) (by omega)
    have hlow := le_toNat_digitChar (c.toNat % 16) (by omega)
    simp only [unitDigits, List.mem_cons, List.not_mem_nil, or_false] at h
    rcases h with rfl | rfl | rfl | rfl | rfl | rfl
    iterate 4
      decide
    · exact hhigh
    · exact hlow
  · obtain rfl := List.mem_singleton.1 h
    omega

/-- No control character is written by `quote`. -/
lemma le_toNat_of_mem_quote {s : String} {d : Char} (h : d ∈ quote s) : 0x20 ≤ d.toNat := by
  unfold quote at h
  rcases List.mem_append.1 h with h | h
  · rcases List.mem_cons.1 h with rfl | h
    · decide
    · obtain ⟨c, -, hd⟩ := List.mem_flatMap.1 h
      exact le_toNat_of_mem_escape hd
  · obtain rfl := List.mem_singleton.1 h
    decide

end Value

end VoiceTurn.Json
