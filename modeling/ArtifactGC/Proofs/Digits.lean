import Mathlib.Algebra.Group.Nat.Defs
import Mathlib.Data.List.TakeWhile
import ArtifactGC.Instant.Text
import ArtifactGC.Json.Reader
import ArtifactGC.Text.Blank

/-!
# Decimal digits in text

Numbers are written in decimal digits, as they are or padded to a width, and read by taking the
digits off the front of a text. Padding changes neither the digits' kind nor the number, and it
gives every number below `10 ^ width` exactly that width; so reading takes exactly the digits
that were written, provided that no further digit follows them.
-/

namespace ArtifactGC

/-- A text that does not go on with a decimal digit. -/
def NoDigit (rest : List Char) : Prop := ∀ c ∈ rest.head?, c.isDigit = false

@[simp] theorem noDigit_cons {c : Char} {rest : List Char} :
    NoDigit (c :: rest) ↔ c.isDigit = false := by
  simp [NoDigit]

/-- The digits in front of a text that does not go on with one are all its leading digits. -/
theorem takeWhile_isDigit_append {digits rest : List Char} (h : ∀ c ∈ digits, c.isDigit = true)
    (hrest : NoDigit rest) : (digits ++ rest).takeWhile Char.isDigit = digits := by
  rw [List.takeWhile_append_of_pos h]
  cases rest with
  | nil => simp
  | cons c rest => simp [noDigit_cons.mp hrest]

/-- What is left behind the digits in front of a text that does not go on with one. -/
theorem dropWhile_isDigit_append {digits rest : List Char} (h : ∀ c ∈ digits, c.isDigit = true)
    (hrest : NoDigit rest) : (digits ++ rest).dropWhile Char.isDigit = rest := by
  rw [List.dropWhile_append_of_pos h]
  cases rest with
  | nil => simp
  | cons c rest => simp [noDigit_cons.mp hrest]

/-- A text splits between the digits in front and what follows them. -/
theorem Json.splitDigits_append {digits rest : List Char} (h : ∀ c ∈ digits, c.isDigit = true)
    (hrest : NoDigit rest) : splitDigits (digits ++ rest) = (digits, rest) := by
  rw [splitDigits, takeWhile_isDigit_append h hrest, dropWhile_isDigit_append h hrest]

/-- The decimal digits of a number are decimal digits. -/
theorem isDigit_of_mem_toDigits_ten {n : Nat} {c : Char} (h : c ∈ Nat.toDigits 10 n) :
    c.isDigit = true :=
  Nat.isDigit_of_mem_toDigits (by omega) (by omega) h

/-- Only zero is written with a zero in front. -/
theorem head?_toDigits_eq_zero {n : Nat} (h : (Nat.toDigits 10 n).head? = some '0') :
    n = 0 := by
  induction n using Nat.strongRecOn with
  | ind n ih =>
    rw [Nat.toDigits_eq_if (by omega)] at h
    split at h
    · rename_i hn
      have hdigit : n.digitChar = '0' := by simpa using h
      exact Nat.digitChar_eq_zero.mp hdigit
    · rename_i hn
      have hhead : (Nat.toDigits 10 (n / 10)).head? = some '0' := by
        rw [List.head?_append] at h
        cases hds : Nat.toDigits 10 (n / 10) with
        | nil => exact absurd hds Nat.toDigits_ne_nil
        | cons d ds => simpa [hds] using h
      have hzero := ih (n / 10) (by omega) hhead
      omega

namespace Text

/-- A padded number consists of decimal digits. -/
theorem isDigit_of_mem_padded {width n : Nat} {c : Char} (h : c ∈ padded width n) :
    c.isDigit = true := by
  rcases List.mem_append.mp h with hzero | hdigit
  · rw [List.eq_of_mem_replicate hzero]
    decide
  · exact isDigit_of_mem_toDigits_ten hdigit

/-- A number that fits into a positive width is padded to exactly that width. -/
theorem length_padded {width n : Nat} (hwidth : 0 < width) (hn : n < 10 ^ width) :
    (padded width n).length = width := by
  have hlength := (Nat.length_toDigits_le_iff (b := 10) (by omega) hwidth).mpr hn
  simp only [padded, List.length_append, List.length_replicate]
  omega

/-- A padded number has at least one digit. -/
theorem padded_ne_nil (width n : Nat) : padded width n ≠ [] := by
  intro h
  exact Nat.toDigits_ne_nil (List.append_eq_nil_iff.mp h).2

/-- Padding does not change the number. -/
@[simp] theorem ofDigitChars_padded (width n : Nat) :
    Nat.ofDigitChars 10 (padded width n) 0 = n := by
  rw [padded, Nat.ofDigitChars_append, Nat.ofDigitChars_replicate_zero, Nat.mul_zero,
    Nat.ofDigitChars_ten_toDigits]

end Text

/-- Digits in front of a text that does not go on with one are read as their number, if there are
some and not more than the limit. -/
theorem Instant.readDigits?_append {limit : Nat} {digits rest : List Char}
    (h : ∀ c ∈ digits, c.isDigit = true) (hne : digits ≠ []) (hlimit : digits.length ≤ limit)
    (hrest : NoDigit rest) :
    readDigits? limit (digits ++ rest) = some (Nat.ofDigitChars 10 digits 0, rest) := by
  have hstop : NoDigit (rest.take (limit - digits.length)) := by
    intro c hc
    apply hrest
    rw [List.head?_take] at hc
    split at hc
    · cases hc
    · exact hc
  have hdigits : ((digits ++ rest).take limit).takeWhile Char.isDigit = digits := by
    rw [List.take_append, List.take_of_length_le hlimit]
    exact takeWhile_isDigit_append h hstop
  simp [readDigits?, hdigits, hne]

end ArtifactGC
