import Mathlib.Algebra.Order.Field.Power
import Mathlib.Data.Rat.Cast.Order
import Mathlib.Tactic.FieldSimp
import Mathlib.Tactic.Linarith
import Mathlib.Tactic.NormNum
import Mathlib.Tactic.Positivity
import Mathlib.Tactic.Ring
import ArtifactGC.Codec.Standard
import ArtifactGC.Proofs.Rounding

/-!
# Shortest numerals

The search for the fewest digits only ever accepts a multiple of a power of ten that lies in the
interval of the double, and it succeeds at seventeen digits at the latest: there the multiples
lie closer together than the interval is wide. Neither the loss of zero digits nor the choice
between plain and exponential notation changes the number. So a finite double is what its literal is
rounded to: `nearest?_literal_shortest` says so.
-/

namespace ArtifactGC.Double

/-- The factors of a common scale compare a multiple of a power of ten with a multiple of a power
of two. -/
theorem commonScale_spec (unit q : Int) :
    ∃ scale : ℚ, 0 < scale ∧ ((commonScale unit q).1 : ℚ) = scale * 10 ^ unit ∧
      ((commonScale unit q).2 : ℚ) = scale * 2 ^ q := by
  refine ⟨10 ^ (-unit).toNat * 2 ^ (-q).toNat, by positivity, ?_, ?_⟩
  · rw [zpow_eq_pow_div (by norm_num : (10 : ℚ) ≠ 0)]
    simp only [commonScale, Nat.shiftLeft_eq, Nat.pow_eq]
    push_cast
    field_simp
  · rw [zpow_eq_pow_div two_ne_zero]
    simp only [commonScale, Nat.shiftLeft_eq, Nat.pow_eq]
    push_cast
    field_simp

/-- A multiple of a power of ten lies above a multiple of a power of two. -/
theorem commonScale_le_iff (unit q : Int) (x c : Nat) :
    x * (commonScale unit q).2 ≤ c * (commonScale unit q).1 ↔ (x : ℚ) * 2 ^ q ≤ c * 10 ^ unit := by
  obtain ⟨scale, hscale, hten, htwo⟩ := commonScale_spec unit q
  rw [← Nat.cast_le (α := ℚ), Nat.cast_mul, Nat.cast_mul, hten, htwo, mul_left_comm,
    mul_left_comm (c : ℚ), mul_le_mul_iff_right₀ hscale]

/-- A multiple of a power of ten lies below a multiple of a power of two. -/
theorem le_commonScale_iff (unit q : Int) (x c : Nat) :
    c * (commonScale unit q).1 ≤ x * (commonScale unit q).2 ↔ (c : ℚ) * 10 ^ unit ≤ x * 2 ^ q := by
  obtain ⟨scale, hscale, hten, htwo⟩ := commonScale_spec unit q
  rw [← Nat.cast_le (α := ℚ), Nat.cast_mul, Nat.cast_mul, hten, htwo, mul_left_comm,
    mul_left_comm (x : ℚ), mul_le_mul_iff_right₀ hscale]

/-- The test that a multiple of a power of ten reads back, as it is made. -/
def multipleReadsBack (d : Double) (unit : Int) (c : Nat) : Bool :=
  let (a, b) := commonScale unit (d.exponent - 2)
  let (low, high) := d.readBackBounds
  if d.significand % 2 = 0 then low * b ≤ c * a ∧ c * a ≤ high * b
  else low * b < c * a ∧ c * a < high * b

/-- The test decides whether the multiple lies in the interval. -/
theorem multipleReadsBack_iff (d : Double) (unit : Int) (c : Nat) :
    d.multipleReadsBack unit c = true ↔ d.ReadsBack (c * 10 ^ unit) := by
  have hfrom := commonScale_le_iff unit (d.exponent - 2) d.readBackBounds.1 c
  have hto := le_commonScale_iff unit (d.exponent - 2) d.readBackBounds.2 c
  have hafter := lt_iff_lt_of_le_iff_le
    (le_commonScale_iff unit (d.exponent - 2) d.readBackBounds.1 c)
  have hbefore := lt_iff_lt_of_le_iff_le
    (commonScale_le_iff unit (d.exponent - 2) d.readBackBounds.2 c)
  by_cases heven : d.significand % 2 = 0
  · simp [multipleReadsBack, ReadsBack, heven, hfrom, hto]
  · have hodd : d.significand % 2 = 1 := by omega
    simp only [multipleReadsBack, ReadsBack, hodd, Nat.one_ne_zero, if_false, decide_eq_true_eq,
      hafter, hbefore, forall_const]
    exact ⟨fun h => ⟨⟨h.1.le, h.2.le⟩, h⟩, fun h => h.2⟩

/-- The greatest multiple of a power of ten that does not exceed a double. -/
def multipleBelow (d : Double) (unit : Int) : Nat :=
  4 * d.significand * (commonScale unit (d.exponent - 2)).2 /
    (commonScale unit (d.exponent - 2)).1

/-- One of the two nearest multiples is found if it reads back, and none if neither does. -/
theorem readBackMultiple?_cases (tie : Tie) (d : Double) (unit : Int) :
    (d.multipleReadsBack unit (d.multipleBelow unit) = true ∧
        d.readBackMultiple? tie unit = some (d.multipleBelow unit)) ∨
      (d.multipleReadsBack unit (d.multipleBelow unit + 1) = true ∧
        d.readBackMultiple? tie unit = some (d.multipleBelow unit + 1)) ∨
      (d.multipleReadsBack unit (d.multipleBelow unit) = false ∧
        d.multipleReadsBack unit (d.multipleBelow unit + 1) = false ∧
        d.readBackMultiple? tie unit = none) := by
  obtain ⟨⟨a, b⟩, hscale⟩ : ∃ scale, commonScale unit (d.exponent - 2) = scale := ⟨_, rfl⟩
  obtain ⟨⟨low, high⟩, hbounds⟩ : ∃ bounds, d.readBackBounds = bounds := ⟨_, rfl⟩
  cases hbelow : d.multipleReadsBack unit (d.multipleBelow unit) <;>
    cases habove : d.multipleReadsBack unit (d.multipleBelow unit + 1) <;>
    simp only [multipleReadsBack, multipleBelow, hscale, hbounds] at hbelow habove ⊢ <;>
    simp only [readBackMultiple?, hscale, hbounds, hbelow, habove]
  · simp
  · simp
  · simp
  · -- both read back, and the nearer one or one of the two is taken
    split
    all_goals simp
    omega

/-- Only a multiple that reads back is found, and one is found when one of the two nearest reads
back. -/
theorem readBackMultiple?_spec (tie : Tie) (d : Double) (unit : Int) :
    (∀ c, d.readBackMultiple? tie unit = some c → d.ReadsBack (c * 10 ^ unit)) ∧
      (d.readBackMultiple? tie unit = none →
        ¬ d.ReadsBack (d.multipleBelow unit * 10 ^ unit) ∧
          ¬ d.ReadsBack ((d.multipleBelow unit + 1 : Nat) * 10 ^ unit)) := by
  rw [← multipleReadsBack_iff, ← multipleReadsBack_iff]
  rcases d.readBackMultiple?_cases tie unit with
    ⟨hread, hfound⟩ | ⟨hread, hfound⟩ | ⟨hbelow, habove, hnone⟩
  · rw [hfound]
    refine ⟨fun c hc => ?_, nofun⟩
    cases hc
    exact (multipleReadsBack_iff d unit _).mp hread
  · rw [hfound]
    refine ⟨fun c hc => ?_, nofun⟩
    cases hc
    exact (multipleReadsBack_iff d unit _).mp hread
  · rw [hnone]
    exact ⟨nofun, fun _ => ⟨by simp [hbelow], by simp [habove]⟩⟩

/-! ### The search succeeds -/

/-- The estimate of a decimal logarithm from a binary one never comes out too large. -/
theorem ten_zpow_le_two_zpow {n : Int} (hlow : -1074 ≤ n) (hhigh : n ≤ 1023) :
    (10 : ℚ) ^ (n * 78913 / 0x40000) ≤ 2 ^ n := by
  have hpositive : ∀ k < 1024, 10 ^ (k * 78913 / 0x40000) ≤ 2 ^ k := by decide +kernel
  have hnegative : ∀ k < 1075, 2 ^ k ≤ 10 ^ ((k * 78913 + 0x3ffff) / 0x40000) := by
    decide +kernel
  rcases Int.le_total 0 n with hn | hn
  · obtain ⟨k, rfl⟩ := Int.eq_ofNat_of_zero_le hn
    have hguess : (k : Int) * 78913 / 0x40000 = (k * 78913 / 0x40000 : Nat) := by omega
    rw [hguess, zpow_natCast, zpow_natCast]
    exact_mod_cast hpositive k (by omega)
  · obtain ⟨k, hk⟩ := Int.eq_ofNat_of_zero_le (Int.neg_nonneg_of_nonpos hn)
    obtain rfl : n = -(k : Int) := by omega
    have hguess : -(k : Int) * 78913 / 0x40000 =
        -((k * 78913 + 0x3ffff) / 0x40000 : Nat) := by omega
    rw [hguess, zpow_neg, zpow_neg, zpow_natCast, zpow_natCast]
    apply inv_anti₀ (by positivity)
    exact_mod_cast hnegative k (by omega)

/-- The power of ten from which the digits are counted does not exceed the number. -/
theorem ten_zpow_decimalMagnitude_le {d : Double} (hfinite : d.isFinite = true)
    (hpos : d.significand ≠ 0) :
    (10 : ℚ) ^ d.decimalMagnitude ≤ d.significand * 2 ^ d.exponent := by
  have hlog : (2 : ℚ) ^ ((d.significand.log2 : Int) + d.exponent) ≤
      d.significand * 2 ^ d.exponent := by
    rw [zpow_add₀ two_ne_zero, zpow_natCast]
    gcongr
    exact_mod_cast Nat.log2_self_le hpos
  have hrange : d.significand.log2 < 53 :=
    (Nat.log2_lt hpos).mpr d.significand_lt
  have hlow := d.exponent_ge
  have hhigh := exponent_le hfinite
  simp only [decimalMagnitude]
  split
  · rename_i h
    have htest := (le_commonScale_iff _ d.exponent d.significand 1).mp (by simpa using h)
    simpa using htest
  · exact le_trans (ten_zpow_le_two_zpow (by omega) (by omega)) hlog

/-- The greatest multiple below a double, and the next one above it. -/
theorem multipleBelow_spec (d : Double) (unit : Int) :
    (d.multipleBelow unit : ℚ) * 10 ^ unit ≤ 4 * d.significand * 2 ^ (d.exponent - 2) ∧
      4 * d.significand * 2 ^ (d.exponent - 2) < ((d.multipleBelow unit : ℚ) + 1) * 10 ^ unit := by
  obtain ⟨scale, hscale, hten, -⟩ := commonScale_spec unit (d.exponent - 2)
  have hpositive : 0 < (commonScale unit (d.exponent - 2)).1 := by
    have hcast : (0 : ℚ) < (commonScale unit (d.exponent - 2)).1 := by
      rw [hten]
      positivity
    exact_mod_cast hcast
  have hbelow := (le_commonScale_iff unit (d.exponent - 2) (4 * d.significand)
    (d.multipleBelow unit)).mp (Nat.div_mul_le_self _ _)
  have habove := (lt_iff_lt_of_le_iff_le (le_commonScale_iff unit (d.exponent - 2)
    (4 * d.significand) (d.multipleBelow unit + 1))).mp (by
      rw [Nat.mul_comm (d.multipleBelow unit + 1)]
      exact Nat.lt_mul_div_succ _ hpositive)
  push_cast at hbelow habove
  exact ⟨hbelow, habove⟩

/-- Strictly between the ends every number reads back. -/
theorem readsBack_of_lt {d : Double} {x : ℚ}
    (hlow : d.readBackBounds.1 * (2 : ℚ) ^ (d.exponent - 2) < x)
    (hhigh : x < d.readBackBounds.2 * (2 : ℚ) ^ (d.exponent - 2)) : d.ReadsBack x :=
  ⟨⟨hlow.le, hhigh.le⟩, fun _ => ⟨hlow, hhigh⟩⟩

/-- Multiples with seventeen digits are closer together than the ends of the interval, and the
double lies above the lower end. -/
theorem spacing_lt_interval {d : Double} (hfinite : d.isFinite = true)
    (hpos : d.significand ≠ 0) :
    (10 : ℚ) ^ (d.decimalMagnitude - 16) <
        (d.readBackBounds.2 - d.readBackBounds.1) * 2 ^ (d.exponent - 2) ∧
      d.readBackBounds.1 * (2 : ℚ) ^ (d.exponent - 2) <
        4 * d.significand * 2 ^ (d.exponent - 2) := by
  have hunit : (0 : ℚ) < 2 ^ (d.exponent - 2) := zpow_pos two_pos _
  have hvalue : (d.significand : ℚ) * 2 ^ d.exponent =
      4 * d.significand * 2 ^ (d.exponent - 2) := by
    rw [zpow_sub₀ two_ne_zero]
    norm_num
    ring
  have hspacing : (10 : ℚ) ^ (d.decimalMagnitude - 16) * 10 ^ 16 ≤
      4 * d.significand * 2 ^ (d.exponent - 2) := by
    have hleading := ten_zpow_decimalMagnitude_le hfinite hpos
    rw [hvalue] at hleading
    rw [zpow_sub₀ (by norm_num)]
    norm_num at hleading ⊢
    exact hleading
  have hone : 1 ≤ d.significand := Nat.one_le_iff_ne_zero.mpr hpos
  obtain ⟨hupper, ⟨⟨hpower, -⟩, hlower⟩ | ⟨-, hlower⟩⟩ := d.readBackBounds_cases
  · rw [hpower] at hspacing
    rw [hupper, hlower, Nat.cast_sub (by omega), hpower]
    push_cast at hspacing ⊢
    constructor <;> linarith
  · have hsize : (d.significand : ℚ) * 2 ^ (d.exponent - 2) ≤ 2 ^ 53 * 2 ^ (d.exponent - 2) := by
      gcongr
      exact_mod_cast d.significand_lt.le
    rw [hupper, hlower, Nat.cast_sub (by omega)]
    push_cast
    constructor <;> linarith

/-- With seventeen digits the multiples lie so close together that one reads back. -/
theorem readBackMultiple?_ne_none (tie : Tie) {d : Double} (hfinite : d.isFinite = true)
    (hpos : d.significand ≠ 0) : d.readBackMultiple? tie (d.decimalMagnitude - 16) ≠ none := by
  intro hnone
  obtain ⟨hbelow, habove⟩ := (readBackMultiple?_spec tie d _).2 hnone
  obtain ⟨hle, hlt⟩ := d.multipleBelow_spec (d.decimalMagnitude - 16)
  obtain ⟨hspacing, hlower⟩ := spacing_lt_interval hfinite hpos
  have hunit : (0 : ℚ) < 2 ^ (d.exponent - 2) := zpow_pos two_pos _
  have hupper : (d.readBackBounds.2 : ℚ) = 4 * d.significand + 2 := by
    exact_mod_cast d.readBackBounds_cases.1
  by_cases hinside : d.readBackBounds.1 * (2 : ℚ) ^ (d.exponent - 2) <
      d.multipleBelow (d.decimalMagnitude - 16) * 10 ^ (d.decimalMagnitude - 16)
  · apply hbelow (readsBack_of_lt hinside _)
    rw [hupper]
    linarith
  · apply habove (readsBack_of_lt _ _)
    · push_cast
      linarith
    · push_cast
      linarith

/-! ### The numeral that is found -/

/-- Dropping zero digits changes the digits and not the number. -/
theorem stripZeros_spec (limit c : Nat) :
    c = (stripZeros limit c).1 * 10 ^ (stripZeros limit c).2 := by
  induction limit generalizing c with
  | zero => simp [stripZeros]
  | succ limit ih =>
    rw [stripZeros]
    split
    · have hrest := ih (c / 10)
      simp only [Nat.pow_succ, ← Nat.mul_assoc, ← hrest]
      omega
    · simp

/-- The shortest numeral of a finite double other than zero lies in its interval. -/
theorem readsBack_shortest (tie : Tie) {d : Double} (hfinite : d.isFinite = true)
    (hpos : d.significand ≠ 0) :
    d.ReadsBack ((d.shortest tie).coefficient * 10 ^ (d.shortest tie).exponent) := by
  have hfound : ((List.range 17).findSome? fun (places : Nat) =>
      (d.readBackMultiple? tie (d.decimalMagnitude - places)).map
        (·, d.decimalMagnitude - (places : Int))).isSome := by
    rw [List.findSome?_isSome_iff]
    refine ⟨16, by simp, ?_⟩
    rw [Option.isSome_map, Option.isSome_iff_ne_none]
    exact readBackMultiple?_ne_none tie hfinite hpos
  obtain ⟨⟨c, unit⟩, hfound⟩ := Option.isSome_iff_exists.mp hfound
  obtain ⟨places, -, hplaces⟩ := List.exists_of_findSome?_eq_some hfound
  obtain ⟨c', hc, hpair⟩ := Option.map_eq_some_iff.mp hplaces
  cases hpair
  have hread := (readBackMultiple?_spec tie d _).1 _ hc
  have hshortest : d.shortest tie = ⟨d.isNegative, (stripZeros 17 c).1,
      d.decimalMagnitude - places + (stripZeros 17 c).2⟩ := by
    simp only [shortest, hpos, if_false, hfound, Option.getD_some]
  have hstrip : (c : ℚ) = (stripZeros 17 c).1 * 10 ^ (stripZeros 17 c).2 := by
    exact_mod_cast stripZeros_spec 17 c
  have hnumber : ((stripZeros 17 c).1 : ℚ) *
      10 ^ (d.decimalMagnitude - places + (stripZeros 17 c).2) =
        c * 10 ^ (d.decimalMagnitude - (places : Int)) := by
    rw [hstrip, zpow_add₀ (by norm_num), zpow_natCast]
    ring
  rw [hshortest]
  simp only
  rw [hnumber]
  exact hread

/-! ### Literals -/

/-- The decimal number of a literal. -/
def decimalOf (n : NumberLiteral) : Decimal :=
  ⟨n.negative, n.coefficient, n.exponent.getD 0 - n.places⟩

/-- Plain or exponential, a literal has the sign and the value of its decimal number. -/
theorem decimalOf_literal (x : Decimal) :
    (decimalOf (literal x)).negative = x.negative ∧
      ((decimalOf (literal x)).coefficient : ℚ) * 10 ^ (decimalOf (literal x)).exponent =
        x.coefficient * 10 ^ x.exponent := by
  have hsize := Nat.length_toDigits_pos (b := 10) (n := x.coefficient)
  simp only [literal]
  split
  · split
    · rename_i hinteger
      refine ⟨rfl, ?_⟩
      have hexponent : x.exponent = (x.exponent.toNat : Int) := by omega
      rw [hexponent]
      simp only [decimalOf, Option.getD_none, Nat.pow_eq, Int.toNat_natCast, zpow_natCast]
      push_cast
      rw [pow_succ, zpow_neg_one]
      field_simp
    · rename_i hfraction
      refine ⟨rfl, ?_⟩
      have hexponent : (0 : Int) - (-x.exponent).toNat = x.exponent := by omega
      simp only [decimalOf, Option.getD_none, hexponent]
  · refine ⟨rfl, ?_⟩
    have hexponent : x.exponent + (Nat.toDigits 10 x.coefficient).length - 1 -
        ((Nat.toDigits 10 x.coefficient).length - 1 : Nat) = x.exponent := by omega
    simp only [decimalOf, Option.getD_some, hexponent]

/-- A number without significand is zero. -/
theorem magnitude_eq_zero {d : Double} (h : d.significand = 0) : d.magnitude = 0 := by
  have hparts := d.significand_cases
  simp only [leadingBit] at hparts
  omega

/-- A finite double has the sign of its literal, and is what the literal is rounded to. -/
theorem nearest?_literal_shortest (tie : Tie) {d : Double} (hfinite : d.isFinite = true)
    {num den : Nat} (hden : den ≠ 0)
    (hvalue : (num : ℚ) / den = (decimalOf (literal (d.shortest tie))).coefficient *
      10 ^ (decimalOf (literal (d.shortest tie))).exponent) :
    (decimalOf (literal (d.shortest tie))).negative = d.isNegative ∧
      nearest? num den = some d.magnitude := by
  obtain ⟨hsign, hnumeral⟩ := decimalOf_literal (d.shortest tie)
  have hnegative : (d.shortest tie).negative = d.isNegative := by
    simp only [shortest]
    split <;> rfl
  refine ⟨hsign.trans hnegative, ?_⟩
  rw [hnumeral] at hvalue
  by_cases hzero : d.significand = 0
  · have hcoefficient : (d.shortest tie).coefficient = 0 := by
      simp only [shortest, hzero, if_true]
    rw [hcoefficient, Nat.cast_zero, zero_mul, div_eq_zero_iff, Nat.cast_eq_zero,
      or_iff_left (Nat.cast_ne_zero.mpr hden)] at hvalue
    rw [hvalue, magnitude_eq_zero hzero]
    rfl
  · apply ReadsBack.nearest? hfinite hzero hden
    rw [hvalue]
    exact readsBack_shortest tie hfinite hzero

end ArtifactGC.Double
