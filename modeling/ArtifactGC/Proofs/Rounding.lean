import Mathlib.Algebra.Order.Field.Power
import Mathlib.Data.Rat.Cast.Order
import Mathlib.Tactic.FieldSimp
import Mathlib.Tactic.Linarith
import Mathlib.Tactic.NormNum
import Mathlib.Tactic.Positivity
import Mathlib.Tactic.Ring
import ArtifactGC.Double.Decimal

/-!
# Which numbers are rounded to a double

A finite double is `m * 2 ^ q`. The numbers that round to it are those of an interval that reaches
half way to its neighbours; the ends belong to it when `m` is even. Rounding works with integers
only: it takes the logarithm of a quotient, scales the quotient by that power of two and rounds it
to an integer. The main statement is that it arrives at exactly the double whose interval holds the
quotient.
-/

namespace ArtifactGC

/-- A power is a quotient of two powers, of which one has the exponent zero. -/
theorem zpow_eq_pow_div {b : ℚ} (hb : b ≠ 0) (t : Int) :
    b ^ t = b ^ t.toNat / b ^ (-t).toNat := by
  rw [eq_div_iff (pow_ne_zero _ hb), ← zpow_natCast, ← zpow_natCast, ← zpow_add₀ hb]
  congr 1
  omega

namespace Double

/-! ### The parts of a double -/

/-- The significand has its leading bit, unless the exponent field is zero. -/
theorem significand_cases (d : Double) :
    (d.exponentField = 0 ∧ d.significand = d.magnitude) ∨
      (0 < d.exponentField ∧ d.significand = d.magnitude % leadingBit + leadingBit) := by
  by_cases h : d.exponentField = 0
  · exact .inl ⟨h, if_pos h⟩
  · exact .inr ⟨Nat.pos_of_ne_zero h, if_neg h⟩

/-- The magnitude counts the doubles from zero upwards: a step of the exponent is a step of the
leading bit. -/
theorem magnitude_eq (d : Double) :
    d.magnitude = (d.exponent + 1074).toNat * leadingBit + d.significand := by
  have hparts := d.significand_cases
  simp only [exponent, exponentField, leadingBit] at hparts ⊢
  omega

theorem exponent_ge (d : Double) : -1074 ≤ d.exponent := by
  simp only [exponent]
  omega

theorem exponent_le {d : Double} (h : d.isFinite = true) : d.exponent ≤ 971 := by
  have hfinite : d.magnitude < infiniteMagnitude := of_decide_eq_true h
  simp only [exponent, exponentField, leadingBit, infiniteMagnitude] at hfinite ⊢
  omega

theorem significand_lt (d : Double) : d.significand < 2 ^ 53 := by
  have hparts := d.significand_cases
  simp only [exponentField, leadingBit] at hparts
  omega

/-- Above the least exponent the significand has its leading bit. -/
theorem le_significand {d : Double} (h : -1074 < d.exponent) : 2 ^ 52 ≤ d.significand := by
  have hparts := d.significand_cases
  simp only [exponent, exponentField, leadingBit] at h hparts
  omega

/-- A number is determined by its sign and its magnitude. -/
@[simp] theorem ofMagnitude_magnitude (d : Double) :
    ofMagnitude d.isNegative d.magnitude = d := by
  have hlt := d.bits.toNat_lt
  have hbits : (if d.isNegative then signBit + d.magnitude else d.magnitude) = d.bits.toNat := by
    by_cases hsign : signBit ≤ d.bits.toNat
    · rw [if_pos (by simpa [isNegative] using hsign)]
      simp only [magnitude, signBit] at hsign ⊢
      omega
    · rw [if_neg (by simpa [isNegative] using hsign)]
      simp only [magnitude, signBit] at hsign ⊢
      omega
  rw [ofMagnitude, hbits]
  exact congrArg Double.mk UInt64.ofNat_toNat

/-- Whether the gap to the next smaller double is half as wide as the one to the next larger. -/
def IsNarrow (d : Double) : Prop := d.significand = 2 ^ 52 ∧ -1074 < d.exponent

/-- The two bounds of the interval that reads back, in quarters of the last place. -/
theorem readBackBounds_cases (d : Double) :
    d.readBackBounds.2 = 4 * d.significand + 2 ∧
      ((d.IsNarrow ∧ d.readBackBounds.1 = 4 * d.significand - 1) ∨
        (¬ d.IsNarrow ∧ d.readBackBounds.1 = 4 * d.significand - 2)) := by
  have hparts := d.significand_cases
  have hiff : d.IsNarrow ↔ d.magnitude % leadingBit = 0 ∧ 1 < d.exponentField := by
    simp only [IsNarrow, exponent, exponentField, leadingBit] at hparts ⊢
    omega
  refine ⟨rfl, ?_⟩
  by_cases h : d.IsNarrow
  · refine .inl ⟨h, ?_⟩
    simp only [readBackBounds, if_pos (hiff.mp h)]
  · refine .inr ⟨h, ?_⟩
    simp only [readBackBounds, if_neg (mt hiff.mpr h)]

/-! ### Exact logarithms and quotients -/

/-- Scaling a quotient by a power of two, as shifts of its parts. -/
theorem shift_div_shift (num den : Nat) (t : Int) :
    ((num <<< (-t).toNat : Nat) : ℚ) / (den <<< t.toNat : Nat) = num / den / 2 ^ t := by
  rw [zpow_eq_pow_div two_ne_zero, Nat.shiftLeft_eq, Nat.shiftLeft_eq]
  push_cast
  field_simp

/-- Comparing a quotient with a power of two, by shifts of its parts. -/
theorem shift_lt_shift_iff (num : Nat) {den : Nat} (hden : den ≠ 0) (t : Int) :
    num <<< (-t).toNat < den <<< t.toNat ↔ (num : ℚ) / den < 2 ^ t := by
  have hpower : (0 : ℚ) < 2 ^ t := zpow_pos two_pos t
  have hshift : (0 : ℚ) < (den <<< t.toNat : Nat) := by
    rw [Nat.shiftLeft_eq]
    positivity
  rw [← div_lt_one hpower, ← shift_div_shift, div_lt_one hshift]
  exact_mod_cast Iff.rfl

/-- The logarithm of a quotient of positive numbers is exact. -/
theorem floorLog2_spec {num den : Nat} (hnum : num ≠ 0) (hden : den ≠ 0) :
    (2 : ℚ) ^ floorLog2 num den ≤ num / den ∧
      (num : ℚ) / den < 2 ^ (floorLog2 num den + 1) := by
  have hden0 : (0 : ℚ) < den := by exact_mod_cast Nat.pos_of_ne_zero hden
  have hnumLow : (2 : ℚ) ^ num.log2 ≤ num := by exact_mod_cast Nat.log2_self_le hnum
  have hnumHigh : (num : ℚ) < 2 ^ (num.log2 + 1) := by exact_mod_cast Nat.lt_log2_self
  have hdenLow : (2 : ℚ) ^ den.log2 ≤ den := by exact_mod_cast Nat.log2_self_le hden
  have hdenHigh : (den : ℚ) < 2 ^ (den.log2 + 1) := by exact_mod_cast Nat.lt_log2_self
  have hlow : (2 : ℚ) ^ ((num.log2 : Int) - den.log2 - 1) ≤ num / den := by
    calc (2 : ℚ) ^ ((num.log2 : Int) - den.log2 - 1)
        = 2 ^ num.log2 / 2 ^ (den.log2 + 1) := by
          rw [← zpow_natCast, ← zpow_natCast, ← zpow_sub₀ two_ne_zero]
          congr 1
          push_cast
          ring
      _ ≤ num / den := by gcongr
  have hhigh : (num : ℚ) / den < 2 ^ ((num.log2 : Int) - den.log2 + 1) := by
    calc (num : ℚ) / den < 2 ^ (num.log2 + 1) / 2 ^ den.log2 := by gcongr
      _ = 2 ^ ((num.log2 : Int) - den.log2 + 1) := by
          rw [← zpow_natCast, ← zpow_natCast, ← zpow_sub₀ two_ne_zero]
          congr 1
          push_cast
          ring
  have htest := shift_lt_shift_iff num hden ((num.log2 : Int) - den.log2)
  simp only [floorLog2]
  split
  · rename_i h
    exact ⟨hlow, by simpa using htest.mp h⟩
  · rename_i h
    exact ⟨not_lt.mp (mt htest.mpr h), hhigh⟩

/-- A quotient within half a unit of an integer rounds to it; at half a unit the integer has to
be even. -/
theorem divideToEven_eq {num den m : Nat} (hden : den ≠ 0) (hlow : (m : ℚ) - 1 / 2 ≤ num / den)
    (hhigh : (num : ℚ) / den ≤ m + 1 / 2)
    (htie : m % 2 = 1 → (m : ℚ) - 1 / 2 < num / den ∧ (num : ℚ) / den < m + 1 / 2) :
    divideToEven num den = m := by
  have hden0 : (0 : ℚ) < den := by exact_mod_cast Nat.pos_of_ne_zero hden
  have hlow' : 2 * m * den ≤ 2 * num + den := by
    have hscaled : ((m : ℚ) - 1 / 2) * den ≤ num := (le_div_iff₀ hden0).mp hlow
    exact_mod_cast (by linarith : (2 * m * den : ℚ) ≤ 2 * num + den)
  have hhigh' : 2 * num ≤ 2 * m * den + den := by
    have hscaled : (num : ℚ) ≤ (m + 1 / 2) * den := (div_le_iff₀ hden0).mp hhigh
    exact_mod_cast (by linarith : (2 * num : ℚ) ≤ 2 * m * den + den)
  have htie' : m % 2 = 1 → 2 * m * den < 2 * num + den ∧ 2 * num < 2 * m * den + den := by
    intro hodd
    obtain ⟨hl, hh⟩ := htie hodd
    have hscaledLow : ((m : ℚ) - 1 / 2) * den < num := (lt_div_iff₀ hden0).mp hl
    have hscaledHigh : (num : ℚ) < (m + 1 / 2) * den := (div_lt_iff₀ hden0).mp hh
    constructor
    · exact_mod_cast (by linarith : (2 * m * den : ℚ) < 2 * num + den)
    · exact_mod_cast (by linarith : (2 * num : ℚ) < 2 * m * den + den)
  have hdivision : num = num / den * den + num % den := (Nat.div_add_mod' num den).symm
  have hrest := Nat.mod_lt num (Nat.pos_of_ne_zero hden)
  have hmul : 2 * m * den = 2 * (m * den) := Nat.mul_assoc 2 m den
  -- half a unit allows the floor of the quotient and the integer above it
  have hnear : m = num / den ∨ m = num / den + 1 := by
    rcases Nat.lt_or_ge m (num / den) with hlt | hge
    · have hstep := Nat.mul_le_mul_right den hlt
      rw [Nat.succ_mul] at hstep
      omega
    · rcases Nat.lt_or_ge (num / den + 1) m with hgt | hle
      · have hstep := Nat.mul_le_mul_right den hgt
        rw [Nat.succ_mul, Nat.succ_mul] at hstep
        omega
      · omega
  simp only [divideToEven]
  rcases hnear with hm | hm
  · rw [← hm] at hdivision ⊢
    split_ifs <;> omega
  · have hstep : m * den = num / den * den + den := by rw [hm, Nat.succ_mul]
    split_ifs <;> omega

/-! ### The interval that reads back -/

/-- The number lies in the interval of a double: half way to its neighbours, and with the ends
when the significand is even. -/
def ReadsBack (d : Double) (x : ℚ) : Prop :=
  (d.readBackBounds.1 * (2 : ℚ) ^ (d.exponent - 2) ≤ x ∧
    x ≤ d.readBackBounds.2 * (2 : ℚ) ^ (d.exponent - 2)) ∧
  (d.significand % 2 = 1 → d.readBackBounds.1 * (2 : ℚ) ^ (d.exponent - 2) < x ∧
    x < d.readBackBounds.2 * (2 : ℚ) ^ (d.exponent - 2))

/-- The interval in units of the last place: half a unit to each side of the significand, or a
quarter below it. -/
theorem ReadsBack.scaled {d : Double} {x : ℚ} (hpos : d.significand ≠ 0) (h : d.ReadsBack x) :
    (d.significand : ℚ) - 1 / 2 ≤ x / 2 ^ d.exponent ∧
      x / 2 ^ d.exponent ≤ d.significand + 1 / 2 ∧
      (d.significand % 2 = 1 → (d.significand : ℚ) - 1 / 2 < x / 2 ^ d.exponent ∧
        x / 2 ^ d.exponent < d.significand + 1 / 2) ∧
      (d.IsNarrow → (d.significand : ℚ) - 1 / 4 ≤ x / 2 ^ d.exponent) := by
  have hunit : (0 : ℚ) < 2 ^ d.exponent := zpow_pos two_pos _
  have hquarter : (2 : ℚ) ^ (d.exponent - 2) = 2 ^ d.exponent / 4 := by
    rw [zpow_sub₀ two_ne_zero]
    norm_num
  have hone : 1 ≤ d.significand := Nat.one_le_iff_ne_zero.mpr hpos
  obtain ⟨⟨hlow, hhigh⟩, hodd⟩ := h
  rw [hquarter] at hlow hhigh hodd
  rw [le_div_iff₀ hunit, div_le_iff₀ hunit, lt_div_iff₀ hunit, div_lt_iff₀ hunit,
    le_div_iff₀ hunit]
  obtain ⟨hupper, ⟨hnarrow, hlower⟩ | ⟨hwide, hlower⟩⟩ := d.readBackBounds_cases
  · have heven : ¬ d.significand % 2 = 1 := by
      rw [hnarrow.1]
      decide
    rw [hlower, Nat.cast_sub (by omega)] at hlow
    rw [hupper] at hhigh
    push_cast at hlow hhigh
    refine ⟨by linarith, by linarith, fun h => absurd h heven, fun _ => by linarith⟩
  · rw [hlower, hupper, Nat.cast_sub (by omega)] at hodd
    rw [hlower, Nat.cast_sub (by omega)] at hlow
    rw [hupper] at hhigh
    push_cast at hlow hhigh hodd
    refine ⟨by linarith, by linarith, fun h => ?_, fun h => absurd h hwide⟩
    obtain ⟨hl, hh⟩ := hodd h
    exact ⟨by linarith, by linarith⟩

/-! ### Rounding to the double of the interval -/

/-- The logarithm of a number is at least that of what it is above in some unit. -/
private theorem add_le_log {x : ℚ} {log : Int} (hhigh : x < 2 ^ (log + 1)) (unit : Int) {k : Int}
    (hk : (2 : ℚ) ^ k ≤ x / 2 ^ unit) : unit + k ≤ log := by
  have hpowers : (2 : ℚ) ^ (unit + k) < 2 ^ (log + 1) := by
    rw [zpow_add₀ two_ne_zero, mul_comm]
    exact lt_of_le_of_lt ((le_div_iff₀ (zpow_pos two_pos _)).mp hk) hhigh
  have hexponents := (zpow_lt_zpow_iff_right₀ (one_lt_two (α := ℚ))).mp hpowers
  omega

/-- The logarithm of a number is less than that of what it is below in some unit. -/
private theorem log_lt_add {x : ℚ} {log : Int} (hlow : (2 : ℚ) ^ log ≤ x) (unit : Int) {k : Int}
    (hk : x / 2 ^ unit < (2 : ℚ) ^ k) : log < unit + k := by
  apply (zpow_lt_zpow_iff_right₀ (one_lt_two (α := ℚ))).mp
  rw [zpow_add₀ two_ne_zero, mul_comm]
  exact lt_of_le_of_lt hlow ((div_lt_iff₀ (zpow_pos two_pos _)).mp hk)

/-- Scaled by the logarithm of the number, the numbers of an interval round to the same double;
just below a power of two the scale is one step finer and the quotient twice as large. -/
theorem ReadsBack.scale {d : Double} (hpos : d.significand ≠ 0) {x : ℚ} (h : d.ReadsBack x)
    {log : Int} (hlow : (2 : ℚ) ^ log ≤ x) (hhigh : x < 2 ^ (log + 1)) :
    max (log - 52) (-1074) = d.exponent ∨
      (max (log - 52) (-1074) = d.exponent - 1 ∧ d.IsNarrow ∧
        x / 2 ^ d.exponent < d.significand) := by
  have hlt : (d.significand : ℚ) + 1 ≤ 2 ^ 53 := by exact_mod_cast d.significand_lt
  obtain ⟨hfrom, hto, -, hnarrow⟩ := h.scaled hpos
  have hge := d.exponent_ge
  have hbelow : log < d.exponent + 53 := by
    apply log_lt_add hlow
    rw [show (2 : ℚ) ^ (53 : Int) = 2 ^ 53 from zpow_natCast _ _]
    linarith
  by_cases hleast : d.exponent = -1074
  · omega
  have hlead : 2 ^ 52 ≤ d.significand := le_significand (by omega)
  have hlead' : (2 : ℚ) ^ 52 ≤ d.significand := by exact_mod_cast hlead
  by_cases hpower : d.IsNarrow ∧ x / 2 ^ d.exponent < d.significand
  · have hquarter := hnarrow hpower.1
    have hlog : d.exponent + 51 ≤ log := by
      apply add_le_log hhigh
      rw [show (2 : ℚ) ^ (51 : Int) = 2 ^ 52 - 2 ^ 51 by norm_num]
      linarith
    have hlog' : log < d.exponent + 52 := by
      apply log_lt_add hlow
      rw [show (2 : ℚ) ^ (52 : Int) = (2 ^ 52 : Nat) by norm_num, ← hpower.1.1]
      exact hpower.2
    exact .inr ⟨by omega, hpower⟩
  · have hlog : d.exponent + 52 ≤ log := by
      apply add_le_log hhigh
      rw [show (2 : ℚ) ^ (52 : Int) = 2 ^ 52 from zpow_natCast _ _]
      by_cases hsig : d.significand = 2 ^ 52
      · have hnot : ¬ x / 2 ^ d.exponent < d.significand :=
          fun hlt => hpower ⟨⟨hsig, by omega⟩, hlt⟩
        rw [hsig] at hnot
        push_cast at hnot
        exact not_lt.mp hnot
      · have hnext : (2 : ℚ) ^ 52 + 1 ≤ d.significand := by
          exact_mod_cast (by omega : 2 ^ 52 + 1 ≤ d.significand)
        linarith
    omega

/-- Rounding a quotient in the interval of a double gives the magnitude of the double. -/
theorem ReadsBack.roundedMagnitude {d : Double} (hpos : d.significand ≠ 0) {x : ℚ}
    (h : d.ReadsBack x) {num den : Nat} (hnum : num ≠ 0) (hden : den ≠ 0)
    (hvalue : (num : ℚ) / den = x) :
    (max (floorLog2 num den - 52) (-1074) + 1074).toNat * leadingBit +
      divideToEven (num <<< (-max (floorLog2 num den - 52) (-1074)).toNat)
        (den <<< (max (floorLog2 num den - 52) (-1074)).toNat) = d.magnitude := by
  obtain ⟨hlow, hhigh⟩ := floorLog2_spec hnum hden
  rw [hvalue] at hlow hhigh
  obtain ⟨hfrom, hto, hodd, hnarrow⟩ := h.scaled hpos
  have hshifted (q : Int) : den <<< q.toNat ≠ 0 := by
    rw [Nat.shiftLeft_eq]
    positivity
  have hge := d.exponent_ge
  rcases h.scale hpos hlow hhigh with hq | ⟨hq, hpower, hless⟩
  · rw [hq, d.magnitude_eq]
    congr 1
    apply divideToEven_eq (hshifted _)
    all_goals rw [shift_div_shift, hvalue]
    · exact hfrom
    · exact hto
    · exact hodd
  · -- the quotient is rounded up to the next power of two
    have htwice : x / 2 ^ (d.exponent - 1) = 2 * (x / 2 ^ d.exponent) := by
      rw [zpow_sub₀ two_ne_zero]
      field_simp
    have hround : divideToEven (num <<< (-(d.exponent - 1)).toNat)
        (den <<< (d.exponent - 1).toNat) = 2 * d.significand := by
      apply divideToEven_eq (hshifted _)
      all_goals rw [shift_div_shift, hvalue, htwice]
      · have hquarter := hnarrow hpower
        push_cast
        linarith
      · push_cast
        linarith
      · intro hone
        omega
    rw [hq, hround, d.magnitude_eq, hpower.1]
    have hleast := hpower.2
    simp only [leadingBit]
    omega

/-- A quotient in the interval of a finite double is rounded to that double. -/
theorem ReadsBack.nearest? {d : Double} (hfinite : d.isFinite = true) (hpos : d.significand ≠ 0)
    {num den : Nat} (hden : den ≠ 0) (h : d.ReadsBack (num / den)) :
    Double.nearest? num den = some d.magnitude := by
  have hnum : num ≠ 0 := by
    rintro rfl
    obtain ⟨hlow, _⟩ := h.scaled hpos
    have hone : (1 : ℚ) ≤ d.significand := by exact_mod_cast Nat.one_le_iff_ne_zero.mpr hpos
    rw [Nat.cast_zero, zero_div, zero_div] at hlow
    linarith
  have hmagnitude := h.roundedMagnitude hpos hnum hden rfl
  have hlt : d.magnitude < infiniteMagnitude := of_decide_eq_true hfinite
  simp only [Double.nearest?, hnum, if_false, hmagnitude, hlt, if_true]

end Double

end ArtifactGC
