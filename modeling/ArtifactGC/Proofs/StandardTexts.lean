import ArtifactGC.Codec.Standard
import ArtifactGC.Proofs.Identifiers
import ArtifactGC.Proofs.Timestamps

/-!
# The standard texts read back

With the texts of scalars that the program runs with, integers, identifiers and instants read back.
Of doubles some do: reading rounds more than once.
-/

namespace ArtifactGC

/-- An integer reads back from its literal. -/
theorem readInteger?_ofInt (n : Int64) : readInteger? (.ofInt n.toInt) = some n := by
  have hvalue : (if decide (n.toInt < 0) = true then -(n.toInt.natAbs : Int)
      else (n.toInt.natAbs : Int)) = n.toInt := by
    by_cases hn : n.toInt < 0
    · rw [if_pos (decide_eq_true hn)]
      omega
    · rw [if_neg (by simpa using hn)]
      omega
  have hbad : ¬ ((decide (n.toInt < 0) = true ∧ n.toInt.natAbs = 0) ∨
      n.toInt < Int64.minValue.toInt ∨ Int64.maxValue.toInt < n.toInt) := by
    have hlow := n.minValue_le_toInt
    have hhigh := n.toInt_le
    simp only [decide_eq_true_eq]
    omega
  simp only [readInteger?, NumberLiteral.ofInt, hvalue, hbad, if_false, Int64.ofInt_toInt]

section Standard

attribute [local instance] ScalarTexts.standard

instance : LawfulScalarTexts where
  readInteger?_writeInteger := readInteger?_ofInt
  readId?_writeId := Id.ofText?_toText
  readInstant?_writeInstant := Instant.ofText?_toText

/-- The literal of this number, 0.9452706955539223, is read as its neighbour. -/
example : ¬ (⟨0x3fee3fa85468ae3c⟩ : Double).IsReadBack := by decide +kernel

end Standard

end ArtifactGC
