import ArtifactGC.Instant
import ArtifactGC.Instant.Calendar

/-!
# Days and dates

The date of a day falls on that day. A cycle of 400 years that begin in March is cut into its
years by an estimate that grows with the day, so it is enough to see that the estimate is right
on the first day of every year and on the day before it. Dates of the days that an instant may
have are valid.
-/

namespace ArtifactGC.Date

/-- The days of a cycle that come before a year of it. -/
def daysBefore (year : Nat) : Nat := 365 * year + year / 4 - year / 100

/-- The year of a cycle to which a day of it belongs. -/
def yearAt (day : Nat) : Nat := (day - day / 1460 + day / 36524 - day / 146096) / 365

/-- Later days do not belong to earlier years. -/
theorem yearAt_mono {a b : Nat} (h : a ≤ b) (hb : b < 146096) : yearAt a ≤ yearAt b := by
  unfold yearAt
  omega

private theorem yearAt_daysBefore : ∀ year < 400, yearAt (daysBefore year) = year := by
  decide +kernel

private theorem yearAt_pred_daysBefore :
    ∀ year < 400, yearAt (daysBefore (year + 1) - 1) = year := by
  decide +kernel

/-- A day of a cycle lies in the year that it belongs to; the last day of the cycle is the leap
day of its last year. -/
theorem yearAt_spec {day : Nat} (h : day < 146097) :
    yearAt day < 400 ∧ daysBefore (yearAt day) ≤ day ∧
      (day < daysBefore (yearAt day + 1) ∨ (yearAt day = 399 ∧ day = 146096)) := by
  by_cases hlast : day = 146096
  · subst hlast
    decide +kernel
  · have hlt : yearAt day < 400 := by
      have hmono := yearAt_mono (b := 146095) (by omega : day ≤ 146095) (by omega)
      have hend : yearAt 146095 = 399 := by decide +kernel
      omega
    refine ⟨hlt, ?_, .inl ?_⟩
    · apply Nat.le_of_not_lt
      intro hbefore
      cases hyear : yearAt day with
      | zero =>
        rw [hyear] at hbefore
        exact absurd hbefore (Nat.not_lt_zero day)
      | succ year =>
        rw [hyear] at hbefore hlt
        have hmono := yearAt_mono (by omega : day ≤ daysBefore (year + 1) - 1) (by
          unfold daysBefore
          omega)
        rw [yearAt_pred_daysBefore year (by omega)] at hmono
        omega
    · apply Nat.lt_of_not_le
      intro hafter
      by_cases hyear : yearAt day = 399
      · rw [hyear] at hafter
        have hend : daysBefore (399 + 1) = 146096 := by decide
        omega
      · have hmono := yearAt_mono hafter (by omega)
        rw [yearAt_daysBefore _ (by omega)] at hmono
        omega

/-- The month of a day of a year that begins in March, counted from zero. -/
def marchMonth (day : Nat) : Nat := (5 * day + 2) / 153

/-- The month of a day of a year that begins in March. -/
def monthAt (day : Nat) : Nat :=
  if marchMonth day < 10 then marchMonth day + 3 else marchMonth day - 9

/-- The day of its month of a day of a year that begins in March. -/
def dayAt (day : Nat) : Nat := day - (153 * marchMonth day + 2) / 5 + 1

/-- The parts from which the date of a day is put together: a cycle, a year of the cycle and a
day of that year. -/
theorem ofDays_eq (n : Int) :
    ∃ (cycle : Int) (year day : Nat),
      n + 719468 = cycle * 146097 + (daysBefore year + day : Nat) ∧ year < 400 ∧ day ≤ 365 ∧
      (day < daysBefore (year + 1) - daysBefore year ∨ year = 399) ∧
      ofDays n = ⟨if monthAt day ≤ 2 then (year : Int) + cycle * 400 + 1
        else (year : Int) + cycle * 400, monthAt day, dayAt day⟩ := by
  have hday : ((n + 719468) % 146097).toNat < 146097 := by omega
  obtain ⟨hyear, hfrom, hto⟩ := yearAt_spec hday
  refine ⟨(n + 719468) / 146097, yearAt ((n + 719468) % 146097).toNat,
    ((n + 719468) % 146097).toNat - daysBefore (yearAt ((n + 719468) % 146097).toNat),
    by omega, hyear, ?_, ?_, rfl⟩
  · rcases hto with hto | ⟨hlast, hto⟩
    · simp only [daysBefore] at hto ⊢
      omega
    · rw [hlast, hto]
      decide
  · rcases hto with hto | ⟨hlast, -⟩
    · exact .inl (by omega)
    · exact .inr hlast

private theorem month_and_day : ∀ day ≤ 365,
    1 ≤ monthAt day ∧ monthAt day ≤ 12 ∧ 1 ≤ dayAt day ∧
      (153 * ((monthAt day + 9) % 12) + 2) / 5 + dayAt day = day + 1 ∧
      (monthAt day ≤ 2 ↔ 306 ≤ day) ∧
      (monthAt day ≠ 2 → dayAt day ≤ daysInMonth 0 (monthAt day)) ∧
      (monthAt day = 2 → dayAt day ≤ 28 ∨ (dayAt day = 29 ∧ day = 365)) := by
  decide +kernel

/-- The date of a day falls on that day. -/
@[simp] theorem toDays_ofDays (n : Int) : (ofDays n).toDays = n := by
  obtain ⟨cycle, year, day, hn, hyear, hday, -, heq⟩ := ofDays_eq n
  obtain ⟨-, -, -, hcount, -⟩ := month_and_day day hday
  have hstart : (if monthAt day ≤ 2 then
      (if monthAt day ≤ 2 then (year : Int) + cycle * 400 + 1 else year + cycle * 400) - 1
      else if monthAt day ≤ 2 then (year : Int) + cycle * 400 + 1 else year + cycle * 400) =
        year + cycle * 400 := by
    split
    · omega
    · rfl
  have hcycle : ((year : Int) + cycle * 400) / 400 = cycle := by omega
  have hrest : ((year : Int) + cycle * 400) % 400 = year := by omega
  have hmonth : (153 * (((monthAt day : Int) + 9) % 12) + 2) / 5 =
      ((153 * ((monthAt day + 9) % 12) + 2) / 5 : Nat) := by simp
  rw [heq]
  simp only [toDays, hstart, hcycle, hrest, hmonth]
  clear hstart hcycle hrest hmonth heq
  simp only [daysBefore] at hn
  omega

/-- Every month but February has as many days in one year as in any other. -/
theorem daysInMonth_of_ne {month : Nat} (h : month ≠ 2) (year year' : Int) :
    daysInMonth year month = daysInMonth year' month := by
  simp [daysInMonth, h]

/-- February has a leap day in leap years. -/
theorem daysInMonth_february (year : Int) :
    daysInMonth year 2 = if isLeapYear year then 29 else 28 := rfl

/-- The date of a day that an instant may have is valid. -/
theorem isValid_ofDays {n : Int} (hlow : Instant.minDay ≤ n) (hhigh : n ≤ Instant.maxDay) :
    (ofDays n).isValid = true := by
  obtain ⟨cycle, year, day, hn, hyear, hday, hlength, heq⟩ := ofDays_eq n
  obtain ⟨hmonthLow, hmonthHigh, hdayLow, -, hjanuary, hdays, hfebruary⟩ :=
    month_and_day day hday
  have hdayHigh : (ofDays n).day ≤ daysInMonth (ofDays n).year (ofDays n).month := by
    rw [heq]
    by_cases hmonth : monthAt day = 2
    · simp only [hmonth, Nat.le_refl, if_true, daysInMonth_february]
      rcases hfebruary hmonth with hshort | ⟨hleap, hlast⟩
      · apply Nat.le_trans hshort
        split <;> omega
      · have hleapYear : isLeapYear (year + cycle * 400 + 1) = true := by
          simp only [isLeapYear, daysBefore, Bool.and_eq_true, Bool.or_eq_true,
            decide_eq_true_eq] at hlength ⊢
          omega
        simp [hleapYear, hleap]
    · rw [daysInMonth_of_ne hmonth _ 0]
      exact hdays hmonth
  have hrange : minYear ≤ (ofDays n).year ∧ (ofDays n).year ≤ maxYear := by
    rw [heq]
    simp only [hjanuary, minYear, maxYear]
    simp only [Instant.minDay, Instant.maxDay, daysBefore] at hlow hhigh hn
    clear hlength hdayHigh heq hdays hfebruary
    have hcycle : -656 ≤ cycle ∧ cycle ≤ 655 := by omega
    -- the first year begins in the cycle -656, the last one ends in the cycle 655
    constructor
    · by_cases hfirst : cycle = -656
      · subst hfirst
        rcases Nat.lt_trichotomy year 256 with hbefore | rfl | hafter <;> split <;> omega
      · split <;> omega
    · by_cases hlast : cycle = 655
      · subst hlast
        rcases Nat.lt_trichotomy year 142 with hbefore | rfl | hafter <;> split <;> omega
      · split <;> omega
  rw [heq] at hrange hdayHigh ⊢
  simp only [isValid, inRange, Bool.and_eq_true, decide_eq_true_eq]
  exact ⟨⟨⟨⟨hrange, hmonthLow⟩, hmonthHigh⟩, hdayLow⟩, hdayHigh⟩

end ArtifactGC.Date
