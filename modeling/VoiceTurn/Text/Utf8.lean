/-!
# Bytes and their UTF-8 text

Payloads and lines travel as plain bytes. `encode` writes a text as its UTF-8 bytes and `decode?`
reads bytes strictly: the two are inverse to each other on well-formed input, so a text is
determined by its bytes and the other way round.
-/

namespace VoiceTurn

/-- A payload or a line as it travels: bytes without any encoding of their own. -/
abbrev Bytes := List UInt8

namespace Utf8

def encode (s : String) : Bytes := s.toByteArray.data.toList

/-- The text that the bytes spell, or nothing when they are not well-formed UTF-8. -/
def decode? (b : Bytes) : Option String := String.fromUTF8? ⟨b.toArray⟩

@[simp] theorem decode?_encode (s : String) : decode? (encode s) = some s := by
  have h : (⟨(encode s).toArray⟩ : ByteArray) = s.toByteArray := by
    simp [encode]
  unfold decode? String.fromUTF8?
  rw [h]
  simp [s.isValidUTF8, String.fromUTF8]

theorem encode_of_decode? {b : Bytes} {s : String} (h : decode? b = some s) : encode s = b := by
  unfold decode? String.fromUTF8? at h
  split at h
  · obtain rfl := Option.some.inj h
    simp [encode, String.fromUTF8]
  · simp at h

/-- Exactly what `encode` gives is accepted by `decode?`. -/
theorem decode?_eq_some_iff {b : Bytes} {s : String} : decode? b = some s ↔ b = encode s :=
  ⟨fun h => (encode_of_decode? h).symm, fun h => h ▸ decode?_encode s⟩

end Utf8

end VoiceTurn
