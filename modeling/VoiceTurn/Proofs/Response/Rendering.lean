import VoiceTurn.Proofs.Json.Quoting
import VoiceTurn.Proofs.Line.Codec
import VoiceTurn.Response.Composer

/-!
# Responses as payloads

What a composer renders is a document that says the composed sentence and nothing else
(`Composer.read?_render`). There is no control character in it, and so no line break
(`Composer.any_isBreak_render`): it has a line under every publishable topic, from which it can be
read again (`Composer.exists_line_render`).
-/

namespace VoiceTurn

open Topic (isPublishable)

/-! ## Payloads that can be carried -/

/-- A text without control characters has no line breaks among its bytes. -/
lemma Line.any_isBreak_encode {s : String} (h : ∀ c ∈ s.toList, 0x20 ≤ c.toNat) :
    (Utf8.encode s).any Line.isBreak = false := by
  rw [List.any_eq_false]
  intro b hb hbreak
  have hvalue : b.toNat = 0x0A ∨ b.toNat = 0x0D := by
    simp only [Line.isBreak, Bool.or_eq_true, decide_eq_true_eq] at hbreak
    rcases hbreak with rfl | rfl
    · exact .inl rfl
    · exact .inr rfl
  -- a byte this small would be a character of its own
  have hsmall : b.toNat < 128 := by omega
  obtain ⟨c, hc, hcb⟩ := Utf8.exists_char_of_mem_encode hb hsmall
  have hprintable := h c hc
  omega

/-- A payload without line breaks is no reason for `write` to refuse a message. -/
lemma Line.write_ne_invalidPayload {p : Bytes} (hp : p.any Line.isBreak = false)
    (t topic reason : String) : Line.write t p ≠ .error (.invalidPayload topic reason) := by
  intro h
  simp only [Line.write, hp, Bool.false_eq_true, if_false] at h
  split_ifs at h
  cases h

namespace Response.Composer

variable (c : Composer) (payload : Bytes)

/-! ## What is rendered -/

/-- The document that says a sentence. -/
def document (sentence : String) : Json.Value := .object [("text", .string sentence)]

lemma render_eq : c.render payload = Utf8.encode (document (c.compose payload)).render := rfl

/-- A `render` is the `document` of the sentence that `compose` gives. -/
lemma read?_render : ∃ text, Utf8.decode? (c.render payload) = some text ∧
    Json.Value.read? text.toList = some (document (c.compose payload)) := by
  refine ⟨(document (c.compose payload)).render, Utf8.decode?_encode _, ?_⟩
  rw [Json.Value.render, String.toList_ofList]
  exact Json.Value.read?_text_of_string "text" (c.compose payload)

lemma le_toNat_of_mem_document {sentence : String} {d : Char}
    (h : d ∈ (document sentence).text) : 0x20 ≤ d.toNat := by
  have htext : (document sentence).text =
      '\x7b' :: (Json.Value.quote "text" ++ ':' :: Json.Value.quote sentence) ++ ['\x7d'] := rfl
  rw [htext] at h
  simp only [List.mem_append, List.mem_cons, List.not_mem_nil, or_false] at h
  rcases h with (rfl | hkey | rfl | hsentence) | rfl
  · decide
  · exact Json.Value.le_toNat_of_mem_quote hkey
  · decide
  · exact Json.Value.le_toNat_of_mem_quote hsentence
  · decide

lemma any_isBreak_render : (c.render payload).any Line.isBreak = false := by
  rw [render_eq, Json.Value.render]
  apply Line.any_isBreak_encode
  intro d hd
  rw [String.toList_ofList] at hd
  exact le_toNat_of_mem_document hd

/-- A `render` has a line under every publishable topic, and `read` takes it back. -/
lemma exists_line_render {t : String} (ht : isPublishable t = true) :
    ∃ line, Line.write t (c.render payload) = .ok line ∧
      Line.read line = .ok (some (t, c.render payload)) := by
  have hwrite := Line.write_of_isPublishable ht (c.render payload)
  rw [c.any_isBreak_render payload] at hwrite
  exact ⟨_, hwrite, Line.read_of_write hwrite⟩

end Response.Composer

end VoiceTurn
