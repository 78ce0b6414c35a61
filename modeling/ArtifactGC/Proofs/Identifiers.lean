import Mathlib.Algebra.Group.Nat.Defs
import ArtifactGC.Id

/-!
# Identifiers in text

An identifier of 128 bits fits into 26 digits of base 32, so nothing is lost when it is written
and read again.
-/

namespace ArtifactGC.Id

/-- A digit has the value that it was chosen for. -/
theorem digitValue?_digit : ∀ n < 32, digitValue? (digit n) = some n := by
  decide

/-- As many digits are written as are asked for. -/
@[simp] theorem length_digits (count n : Nat) : (digits count n).length = count := by
  induction count generalizing n with
  | zero => rfl
  | succ count ih => rw [digits, List.length_append, ih, List.length_singleton]

/-- Digits are read one after the other. -/
theorem readDigits?_append (n : Nat) (cs ds : List Char) :
    readDigits? n (cs ++ ds) = (readDigits? n cs).bind fun m => readDigits? m ds := by
  induction cs generalizing n with
  | nil => rfl
  | cons c cs ih =>
    rw [List.cons_append, readDigits?, readDigits?]
    cases digitValue? c with
    | none => rfl
    | some value => exact ih _

/-- The last digits of a number are read as the rest that they stand for. -/
theorem readDigits?_digits (count m n : Nat) :
    readDigits? m (digits count n) = some (m * 32 ^ count + n % 32 ^ count) := by
  induction count generalizing n with
  | zero => simp [digits, readDigits?, Nat.mod_one]
  | succ count ih =>
    have hdigit := digitValue?_digit (n % 32) (Nat.mod_lt _ (by omega))
    have hrest : n % 32 ^ (count + 1) = n / 32 % 32 ^ count * 32 + n % 32 := by
      rw [Nat.pow_succ, Nat.mul_comm, Nat.mod_mul]
      omega
    rw [digits, readDigits?_append, ih, Option.bind_some, readDigits?, hdigit, hrest]
    simp only [Option.bind_eq_bind, Option.bind_some, readDigits?, Option.some.injEq]
    rw [Nat.pow_succ, ← Nat.mul_assoc]
    omega

/-- An identifier reads back from its text. -/
@[simp] theorem ofText?_toText {kind : RecordKind} (id : Id kind) :
    ofText? id.toText = some id := by
  have hfits : id.number.toNat < 32 ^ 26 := Nat.lt_of_lt_of_le id.number.isLt (by decide)
  have hread : readDigits? 0 (digits 26 id.number.toNat) = some id.number.toNat := by
    rw [readDigits?_digits, Nat.mod_eq_of_lt hfits, Nat.zero_mul, Nat.zero_add]
  simp [ofText?, toText, hread]

end ArtifactGC.Id
