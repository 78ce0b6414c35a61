import ArtifactGC.Proofs.Rounding

/-!
# The order of finite doubles

Doubles are ordered by sign and magnitude. The magnitudes of finite doubles ascend with the absolute
values that they stand for: a significand never reaches what the next exponent makes of a leading
bit. So finite doubles are in the order of their values, but for the two zeros, which have one value
and of which the negative one comes first. `orderKey_lt_orderKey` says so.
-/

namespace ArtifactGC

namespace Double

/-- The zero without a sign. -/
def zero : Double := ofMagnitude false 0

/-- The zero with a sign. -/
def negativeZero : Double := ofMagnitude true 0

/-- The absolute value of a finite number; beyond these the scale goes on. -/
def absValue (d : Double) : ℚ := d.significand * 2 ^ d.exponent

/-- The value of a finite number. -/
def value (d : Double) : ℚ := if d.isNegative then -d.absValue else d.absValue

theorem absValue_nonneg (d : Double) : 0 ≤ d.absValue := by
  unfold absValue
  positivity

/-- Only the zeros have the value zero. -/
theorem absValue_eq_zero {d : Double} : d.absValue = 0 ↔ d.magnitude = 0 := by
  have hpower : (2 : ℚ) ^ d.exponent ≠ 0 := zpow_ne_zero _ two_ne_zero
  rw [absValue, mul_eq_zero, or_iff_left hpower, Nat.cast_eq_zero]
  have hparts := d.significand_cases
  simp only [exponentField, leadingBit] at hparts
  omega

/-- A larger exponent means a larger absolute value: its significand has the leading bit. -/
theorem absValue_lt_of_exponent_lt {a b : Double} (h : a.exponent < b.exponent) :
    a.absValue < b.absValue := by
  have ha : (a.significand : ℚ) < 2 ^ 53 := by exact_mod_cast a.significand_lt
  have hb : (2 : ℚ) ^ 52 ≤ b.significand := by
    have hleast := a.exponent_ge
    exact_mod_cast le_significand (d := b) (by omega)
  have hstep : (2 : ℚ) ^ (a.exponent + 1) ≤ 2 ^ b.exponent :=
    zpow_le_zpow_right₀ one_le_two (by omega)
  calc a.absValue < 2 ^ 53 * 2 ^ a.exponent := mul_lt_mul_of_pos_right ha (zpow_pos two_pos _)
    _ = 2 ^ 52 * 2 ^ (a.exponent + 1) := by
      rw [zpow_add_one₀ two_ne_zero]
      ring
    _ ≤ b.absValue := mul_le_mul hb hstep (zpow_pos two_pos _).le (Nat.cast_nonneg _)

/-- A larger magnitude means a larger absolute value. -/
theorem absValue_lt_of_magnitude_lt {a b : Double} (h : a.magnitude < b.magnitude) :
    a.absValue < b.absValue := by
  rcases lt_trichotomy a.exponent b.exponent with hlt | heq | hgt
  · exact absValue_lt_of_exponent_lt hlt
  · have hsignificand : (a.significand : ℚ) < b.significand := by
      rw [magnitude_eq, magnitude_eq b, heq] at h
      exact_mod_cast Nat.lt_of_add_lt_add_left h
    rw [absValue, absValue, heq]
    exact mul_lt_mul_of_pos_right hsignificand (zpow_pos two_pos _)
  · -- the leading bit of `a` alone is worth more than the significand of `b`
    have ha := le_significand (d := a) (by have := b.exponent_ge; omega)
    have hb := b.significand_lt
    have hleast := b.exponent_ge
    rw [magnitude_eq, magnitude_eq b, leadingBit] at h
    omega

/-- Absolute values are in the order of the magnitudes. -/
theorem absValue_lt_absValue {a b : Double} :
    a.absValue < b.absValue ↔ a.magnitude < b.magnitude := by
  refine ⟨fun h => ?_, absValue_lt_of_magnitude_lt⟩
  rcases lt_trichotomy a.magnitude b.magnitude with hlt | heq | hgt
  · exact hlt
  · have hexponent : a.exponent = b.exponent := by rw [exponent, exponentField, heq]; rfl
    have hsignificand : a.significand = b.significand := by
      have hparts := a.magnitude_eq.symm.trans (heq.trans b.magnitude_eq)
      rw [hexponent] at hparts
      omega
    rw [absValue, absValue, hexponent, hsignificand] at h
    exact absurd h (lt_irrefl _)
  · exact absurd (absValue_lt_of_magnitude_lt hgt) (not_lt_of_gt h)

/-- A number of some sign is the zero of that sign when its magnitude is zero. -/
theorem eq_ofMagnitude_zero {d : Double} {negative : Bool} :
    d = ofMagnitude negative 0 ↔ d.isNegative = negative ∧ d.magnitude = 0 := by
  constructor
  · rintro rfl
    cases negative <;> exact ⟨rfl, rfl⟩
  · rintro ⟨rfl, hmagnitude⟩
    rw [← hmagnitude, ofMagnitude_magnitude]

/-- Numbers are in the order of their values, and the negative zero precedes the other one. -/
theorem orderKey_lt_orderKey {a b : Double} :
    a.orderKey < b.orderKey ↔ a.value < b.value ∨ (a = negativeZero ∧ b = zero) := by
  have ha := a.absValue_nonneg
  have hb := b.absValue_nonneg
  rw [negativeZero, zero, eq_ofMagnitude_zero, eq_ofMagnitude_zero]
  cases hsignA : a.isNegative <;> cases hsignB : b.isNegative <;>
    simp only [orderKey, value, hsignA, hsignB, if_true, if_false, Bool.false_eq_true, reduceCtorEq,
      true_and, false_and, and_false, or_false]
  case false.false =>
    rw [absValue_lt_absValue]
    omega
  case false.true =>
    refine iff_of_false (by omega) ?_
    linarith
  case true.false =>
    refine iff_of_true (by omega) ?_
    by_cases hzero : a.magnitude = 0 ∧ b.magnitude = 0
    · exact .inr hzero
    · left
      rw [← absValue_eq_zero, ← absValue_eq_zero, not_and_or] at hzero
      rcases hzero with hzero | hzero
      · exact lt_of_lt_of_le (neg_lt_zero.mpr (ha.lt_of_ne' hzero)) hb
      · exact lt_of_le_of_lt (neg_nonpos.mpr ha) (hb.lt_of_ne' hzero)
  case true.true =>
    rw [neg_lt_neg_iff, absValue_lt_absValue]
    omega

end Double

end ArtifactGC
