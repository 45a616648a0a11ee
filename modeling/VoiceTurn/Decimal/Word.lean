/-!
# Words

Which integers a signed word of 64 bits holds. Unsigned words hold the numbers below `UInt64.size`.
-/

namespace VoiceTurn.Decimal

/-- Half the values of a word of 64 bits: the signed ones reach from minus this number up to the
number before it. -/
def halfWord : Nat := UInt64.size / 2

/-- An integer fits a signed word. -/
def FitsSigned (i : Int) : Prop := -(halfWord : Int) ≤ i ∧ i < (halfWord : Int)

instance (i : Int) : Decidable (FitsSigned i) :=
  inferInstanceAs (Decidable (-(halfWord : Int) ≤ i ∧ i < (halfWord : Int)))

end VoiceTurn.Decimal
