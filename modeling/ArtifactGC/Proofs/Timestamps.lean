import ArtifactGC.Proofs.Calendar
import ArtifactGC.Proofs.Digits

/-!
# Instants in text

A timestamp is read part by part: year, month and day, hour, minute and second, fraction and
zone. Each part is written so that its reader takes exactly that part and leaves the rest alone;
together they give back the instant, a leap second included.
-/

namespace ArtifactGC.Instant

open Text (dropBlanks padded isBlank)

/-! ### Parts -/

/-- A digit is no blank. -/
theorem isBlank_of_isDigit {c : Char} (h : c.isDigit = true) : isBlank c = false := by
  have hrange : 48 ≤ c.toNat ∧ c.toNat ≤ 57 := by
    simpa [Char.isDigit, UInt32.le_iff_toNat_le] using h
  simp only [isBlank, Bool.or_eq_false_iff, Bool.and_eq_false_iff, decide_eq_false_iff_not]
  omega

/-- Nothing is dropped in front of a character that is no blank. -/
theorem dropBlanks_cons {c : Char} (h : isBlank c = false) (cs : List Char) :
    dropBlanks (c :: cs) = c :: cs := by
  simp [dropBlanks, h]

/-- A padded number starts with a digit. -/
theorem exists_padded (width n : Nat) :
    ∃ c cs, padded width n = c :: cs ∧ c.isDigit = true := by
  cases hpadded : padded width n with
  | nil => exact absurd hpadded (Text.padded_ne_nil width n)
  | cons c cs =>
    refine ⟨c, cs, rfl, ?_⟩
    apply Text.isDigit_of_mem_padded
    rw [hpadded]
    exact List.mem_cons_self

/-- Nothing is dropped in front of a padded number. -/
theorem dropBlanks_padded (width n : Nat) (rest : List Char) :
    dropBlanks (padded width n ++ rest) = padded width n ++ rest := by
  obtain ⟨c, cs, hpadded, hc⟩ := exists_padded width n
  rw [hpadded]
  exact dropBlanks_cons (isBlank_of_isDigit hc) _

/-- A padded number is read as the number, up to a limit that its digits do not exceed. -/
theorem readDigits?_padded {limit width n : Nat} {rest : List Char}
    (hlimit : (padded width n).length ≤ limit) (hrest : NoDigit rest) :
    readDigits? limit (padded width n ++ rest) = some (n, rest) := by
  rw [readDigits?_append (fun _ => Text.isDigit_of_mem_padded) (Text.padded_ne_nil width n)
    hlimit hrest, Text.ofDigitChars_padded]

/-- A field of two digits is read as its number. -/
theorem readField?_padded {low high n : Nat} (hlow : low ≤ n) (hhigh : n ≤ high) (hn : n < 100)
    (rest : List Char) (hrest : NoDigit rest) :
    readField? low high (padded 2 n ++ rest) = some (n, rest) := by
  have hlimit : (padded 2 n).length ≤ 2 := (Text.length_padded (by omega) hn).le
  simp [readField?, dropBlanks_padded, readDigits?_padded hlimit hrest, hlow, hhigh]

/-- A mark is taken off the text. -/
theorem readMark?_cons {mark : Char} (h : isBlank mark = false) (rest : List Char) :
    readMark? mark (mark :: rest) = some rest := by
  simp [readMark?, dropBlanks_cons h]

/-- A year is read with its sign, if it has one. -/
theorem readYear?_yearText (year : Int) (rest : List Char) (hrest : NoDigit rest) :
    readYear? (yearText year ++ rest) = some (year, rest) := by
  have hsigned : readDigits? (padded 4 year.natAbs ++ rest).length
      (padded 4 year.natAbs ++ rest) = some (year.natAbs, rest) :=
    readDigits?_padded (by simp) hrest
  by_cases hplain : 0 ≤ year ∧ year ≤ 9999
  · have hlimit : (padded 4 year.toNat).length ≤ 4 :=
      (Text.length_padded (by omega) (by omega)).le
    have hread := readDigits?_padded hlimit hrest
    have hvalue : (year.toNat : Int) = year := by omega
    obtain ⟨c, cs, hpadded, hc⟩ := exists_padded 4 year.toNat
    have hminus : c ≠ '-' := by
      rintro rfl
      exact absurd hc (by decide)
    have hplus : c ≠ '+' := by
      rintro rfl
      exact absurd hc (by decide)
    rw [yearText, if_pos hplain, readYear?, dropBlanks_padded]
    rw [hpadded, List.cons_append] at hread ⊢
    split
    · exact absurd (List.cons.inj ‹_›).1 hminus
    · exact absurd (List.cons.inj ‹_›).1 hplus
    · simp only [hread, Option.map_some, hvalue]
  · by_cases hnegative : year < 0
    · have hvalue : -(year.natAbs : Int) = year := by omega
      rw [yearText, if_neg hplain, if_pos hnegative, List.cons_append, readYear?,
        dropBlanks_cons (by decide)]
      simp only [hsigned, Option.map_some, hvalue]
    · have hvalue : (year.natAbs : Int) = year := by omega
      rw [yearText, if_neg hplain, if_neg hnegative, List.cons_append, readYear?,
        dropBlanks_cons (by decide)]
      simp only [hsigned, Option.map_some, hvalue]

/-- The digits behind the point are read in nanoseconds, according to how many they are. -/
theorem readFraction?_padded {places n : Nat} (hplaces : 0 < places) (hlimit : places ≤ 9)
    (hn : n < 10 ^ places) {rest : List Char} (hrest : NoDigit rest) :
    readFraction? ('.' :: (padded places n ++ rest)) = some (n * 10 ^ (9 - places), rest) := by
  have hlength := Text.length_padded hplaces hn
  have hread : readDigits? 9 (padded places n ++ rest) = some (n, rest) :=
    readDigits?_padded (by omega) hrest
  have hcount : (padded places n ++ rest).length - rest.length = places := by
    rw [List.length_append, hlength]
    omega
  have hdrop : rest.dropWhile Char.isDigit = rest := by
    have happend : ([] ++ rest).dropWhile Char.isDigit = rest :=
      dropWhile_isDigit_append (by simp) hrest
    rwa [List.nil_append] at happend
  simp only [readFraction?, hread, Option.bind_eq_bind, Option.bind_some, hcount, hdrop,
    Nat.pow_eq]

/-- The fraction of a second reads back. -/
theorem readFraction?_fractionText {nanos : Nat} (h : nanos < 1000000000) {rest : List Char}
    (hrest : NoDigit rest) (hpoint : ∀ c ∈ rest.head?, c ≠ '.') :
    readFraction? (fractionText nanos ++ rest) = some (nanos, rest) := by
  unfold fractionText
  split
  · rename_i hzero
    subst hzero
    rw [List.nil_append]
    cases rest with
    | nil => rfl
    | cons c rest =>
      have hc : c ≠ '.' := hpoint c rfl
      rw [readFraction?.eq_def]
      split
      · exact absurd (List.cons.inj ‹_›).1 hc
      · rfl
  · split
    · rw [List.cons_append, readFraction?_padded (by omega) (by omega) (by omega) hrest]
      congr 2
      omega
    · split
      · rw [List.cons_append, readFraction?_padded (by omega) (by omega) (by omega) hrest]
        congr 2
        omega
      · rw [List.cons_append, readFraction?_padded (by omega) (by omega) (by omega) hrest]
        congr 2
        omega

/-! ### Dates and times -/

/-- No month has more than 31 days. -/
theorem daysInMonth_le (year : Int) (month : Nat) : Date.daysInMonth year month ≤ 31 := by
  unfold Date.daysInMonth
  split_ifs <;> decide

/-- A valid date reads back. -/
theorem readDate?_append {date : Date} (h : date.isValid = true) (rest : List Char)
    (hrest : NoDigit rest) :
    readDate? (yearText date.year ++ '-' :: (padded 2 date.month ++ '-' ::
      (padded 2 date.day ++ rest))) = some (date, rest) := by
  have hparts : 1 ≤ date.month ∧ date.month ≤ 12 ∧ 1 ≤ date.day ∧ date.day ≤ 31 := by
    have hdays := daysInMonth_le date.year date.month
    simp only [Date.isValid, Bool.and_eq_true, decide_eq_true_eq] at h
    omega
  obtain ⟨hmonthLow, hmonthHigh, hdayLow, hdayHigh⟩ := hparts
  have hyear := readYear?_yearText date.year
    ('-' :: (padded 2 date.month ++ '-' :: (padded 2 date.day ++ rest)))
    (noDigit_cons.mpr (by decide))
  have hmonth := readField?_padded hmonthLow hmonthHigh (by omega)
    ('-' :: (padded 2 date.day ++ rest)) (noDigit_cons.mpr (by decide))
  have hday := readField?_padded hdayLow hdayHigh (by omega) rest hrest
  simp [readDate?, hyear, readMark?_cons (show isBlank '-' = false by decide), hmonth, hday, h]

/-- The time of day of a second and its nanoseconds, as it is written. -/
def timeText (second nanos : Nat) : List Char :=
  padded 2 (second / 3600) ++ ':' :: (padded 2 (second / 60 % 60) ++
    ':' :: (padded 2 (second % 60 + nanos / 1000000000) ++ fractionText (nanos % 1000000000)))

/-- A fraction starts with a point or not at all. -/
theorem noDigit_fractionText (nanos : Nat) {rest : List Char} (hrest : NoDigit rest) :
    NoDigit (fractionText nanos ++ rest) := by
  unfold fractionText
  split_ifs
  · exact hrest
  all_goals exact noDigit_cons.mpr (by decide)

/-- A time of day reads back; a leap second reads as the second that it follows. -/
theorem readTime?_timeText {second nanos : Nat} (hsecond : second < 86400)
    (hnanos : nanos < 2000000000) (hleap : nanos < 1000000000 ∨ second % 60 = 59)
    (rest : List Char) (hrest : NoDigit rest) (hpoint : ∀ c ∈ rest.head?, c ≠ '.') :
    readTime? (timeText second nanos ++ rest) = some (second, nanos, rest) := by
  have hmark := readMark?_cons (show isBlank ':' = false by decide)
  have hhour := readField?_padded (Nat.zero_le (second / 3600)) (by omega : _ ≤ 23) (by omega)
    (':' :: (padded 2 (second / 60 % 60) ++ ':' :: (padded 2 (second % 60 + nanos / 1000000000) ++
      (fractionText (nanos % 1000000000) ++ rest)))) (noDigit_cons.mpr (by decide))
  have hminute := readField?_padded (Nat.zero_le (second / 60 % 60)) (by omega : _ ≤ 59)
    (by omega) (':' :: (padded 2 (second % 60 + nanos / 1000000000) ++
      (fractionText (nanos % 1000000000) ++ rest))) (noDigit_cons.mpr (by decide))
  have hlast := readField?_padded (Nat.zero_le (second % 60 + nanos / 1000000000))
    (by omega : _ ≤ 60) (by omega) (fractionText (nanos % 1000000000) ++ rest)
    (noDigit_fractionText _ hrest)
  have hfraction := readFraction?_fractionText
    (Nat.mod_lt nanos (by omega) : nanos % 1000000000 < 1000000000) hrest hpoint
  simp only [readTime?, timeText, List.append_assoc, List.cons_append, Option.bind_eq_bind,
    hhour, Option.bind_some, hmark, hminute, hlast, hfraction]
  split
  · have hsum : second / 3600 * 3600 + second / 60 % 60 * 60 + 59 = second := by omega
    have hrestored : 1000000000 + nanos % 1000000000 = nanos := by omega
    rw [hsum, hrestored]
  · have hsum : second / 3600 * 3600 + second / 60 % 60 * 60 +
        (second % 60 + nanos / 1000000000) = second := by omega
    have hrestored : nanos % 1000000000 = nanos := by omega
    rw [hsum, hrestored]

/-- The parts of an instant give the instant back. -/
theorem ofLocal?_ofDays (t : Instant) :
    ofLocal? (Date.ofDays t.day) t.second.val t.nanos.val 0 = some t := by
  obtain ⟨day, second, nanos, hrange, hleap⟩ := t
  have hday : (day * 86400 + second.val - 0) / 86400 = day := by omega
  have hsecond : Fin.ofNat 86400 ((day * 86400 + second.val - 0) % 86400).toNat = second := by
    apply Fin.ext
    simp only [Fin.ofNat]
    omega
  have hnanos : Fin.ofNat 2000000000 nanos.val = nanos := by
    apply Fin.ext
    simp only [Fin.ofNat]
    omega
  simp only [ofLocal?, Date.toDays_ofDays, hday, hsecond, hnanos, hrange, hleap, and_self,
    dite_true]

/-- An instant reads back from its text. -/
@[simp] theorem ofText?_toText (t : Instant) : ofText? t.toText = some t := by
  have hdate := readDate?_append (Date.isValid_ofDays t.inRange.1 t.inRange.2)
    ('T' :: (timeText t.second.val t.nanos.val ++ ['Z'])) (noDigit_cons.mpr (by decide))
  have htime := readTime?_timeText t.second.isLt t.nanos.isLt t.leap ['Z']
    (noDigit_cons.mpr (by decide)) (by simp)
  have hzone : readZone? ['Z'] = some (0, []) := by decide
  have htext : t.toText.toList = yearText (Date.ofDays t.day).year ++ '-' ::
      (padded 2 (Date.ofDays t.day).month ++ '-' :: (padded 2 (Date.ofDays t.day).day ++
        'T' :: (timeText t.second.val t.nanos.val ++ ['Z']))) := by
    simp [toText, timeText]
  rw [ofText?, htext]
  simp only [hdate, Option.bind_eq_bind, Option.bind_some, true_or, if_true, htime, hzone,
    ofLocal?_ofDays]
  rfl

end ArtifactGC.Instant
