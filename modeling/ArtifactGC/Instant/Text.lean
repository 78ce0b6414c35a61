import ArtifactGC.Instant
import ArtifactGC.Instant.Calendar
import ArtifactGC.Text.Blank

/-!
# Timestamps in text

An instant is written as `2024-01-01T00:00:00.5Z`: date and time of day in universal time, with
the fewest of 0, 3, 6 or 9 fraction digits that are exact, and with a sign before years outside
0 to 9999. Reading is more liberal. Blanks may stand between the parts, fields may have a single
digit, a blank may replace the `T`, and the zone may be `Z`, `UTC` or an offset of hours and
minutes below one day. Fraction digits past the ninth are dropped, and second 60 is the leap
second that follows second 59.
-/

namespace ArtifactGC.Instant

open Text (dropBlanks padded)

/-- Reads at least one and at most `limit` digits as a number. -/
def readDigits? (limit : Nat) (cs : List Char) : Option (Nat × List Char) :=
  let digits := (cs.take limit).takeWhile Char.isDigit
  if digits.isEmpty then none
  else some (Nat.ofDigitChars 10 digits 0, cs.drop digits.length)

/-- Reads a number of one or two digits after blanks, if it lies between two bounds. -/
def readField? (low high : Nat) (cs : List Char) : Option (Nat × List Char) := do
  let (n, rest) ← readDigits? 2 (dropBlanks cs)
  if low ≤ n ∧ n ≤ high then some (n, rest) else none

/-- Reads one given character after blanks. -/
def readMark? (mark : Char) (cs : List Char) : Option (List Char) :=
  match dropBlanks cs with
  | c :: rest => if c = mark then some rest else none
  | [] => none

/-- Reads a year after blanks: up to four digits, or any number of digits after a sign. -/
def readYear? (cs : List Char) : Option (Int × List Char) :=
  match dropBlanks cs with
  | '-' :: rest => (readDigits? rest.length rest).map fun (n, rest) => (-(n : Int), rest)
  | '+' :: rest => (readDigits? rest.length rest).map fun (n, rest) => ((n : Int), rest)
  | cs => (readDigits? 4 cs).map fun (n, rest) => ((n : Int), rest)

/-- Reads a date. -/
def readDate? (cs : List Char) : Option (Date × List Char) := do
  let (year, cs) ← readYear? cs
  let cs ← readMark? '-' cs
  let (month, cs) ← readField? 1 12 cs
  let cs ← readMark? '-' cs
  let (day, cs) ← readField? 1 31 cs
  let date : Date := ⟨year, month, day⟩
  if date.isValid then some (date, cs) else none

/-- Reads the fraction of a second as nanoseconds; without a point it is zero. -/
def readFraction? (cs : List Char) : Option (Nat × List Char) :=
  match cs with
  | '.' :: rest => do
    let (n, rest') ← readDigits? 9 rest
    some (n * Nat.pow 10 (9 - (rest.length - rest'.length)), rest'.dropWhile Char.isDigit)
  | cs => some (0, cs)

/-- Reads a time of day as its second and nanoseconds. -/
def readTime? (cs : List Char) : Option (Nat × Nat × List Char) := do
  let (hour, cs) ← readField? 0 23 cs
  let cs ← readMark? ':' cs
  let (minute, cs) ← readField? 0 59 cs
  let cs ← readMark? ':' cs
  let (second, cs) ← readField? 0 60 cs
  let (nanos, cs) ← readFraction? cs
  if second = 60 then some (hour * 3600 + minute * 60 + 59, 1000000000 + nanos, cs)
  else some (hour * 3600 + minute * 60 + second, nanos, cs)

/-- Reads two digits as a number. -/
def readTwoDigits? : List Char → Option (Nat × List Char)
  | a :: b :: rest =>
    if a.isDigit ∧ b.isDigit then some (Nat.ofDigitChars 10 [a, b] 0, rest) else none
  | _ => none

/-- Reads the zone as the seconds by which it is ahead of universal time. -/
def readZone? (cs : List Char) : Option (Int × List Char) :=
  let offset (sign : Int) (cs : List Char) : Option (Int × List Char) := do
    let (hours, cs) ← readTwoDigits? cs
    let (minutes, cs) ← readTwoDigits? (cs.dropWhile fun c => c = ':' || Text.isBlank c)
    if minutes < 60 ∧ hours < 24 then some (sign * (hours * 3600 + minutes * 60), cs) else none
  match dropBlanks cs with
  | c :: rest =>
    if c = 'Z' ∨ c = 'z' then some (0, rest)
    else if ((c :: rest).take 3).map Char.toUpper = ['U', 'T', 'C'] then some (0, rest.drop 2)
    else if c = '+' then offset 1 rest
    else if c = '-' ∨ c = '−' then offset (-1) rest
    else none
  | [] => none

/-- The instant at a date and a time of day in a zone, if there is one in range. -/
def ofLocal? (date : Date) (second nanos : Nat) (zone : Int) : Option Instant :=
  let total := date.toDays * 86400 + second - zone
  let day := total / 86400
  let second : Fin 86400 := .ofNat _ (total % 86400).toNat
  let nanos : Fin 2000000000 := .ofNat _ nanos
  if inRange : minDay ≤ day ∧ day ≤ maxDay then
    if leap : nanos.val < 1000000000 ∨ second.val % 60 = 59 then
      some ⟨day, second, nanos, inRange, leap⟩
    else none
  else none

/-- The instant that a text names. -/
def ofText? (text : String) : Option Instant := do
  let (date, cs) ← readDate? text.toList
  match cs with
  | mark :: cs =>
    if mark = 'T' ∨ mark = 't' ∨ mark = ' ' then
      let (second, nanos, cs) ← readTime? cs
      let (zone, cs) ← readZone? cs
      if (dropBlanks cs).isEmpty then ofLocal? date second nanos zone else none
    else none
  | [] => none

/-- The year of a timestamp: four digits, or a sign and at least four. -/
def yearText (year : Int) : List Char :=
  if 0 ≤ year ∧ year ≤ 9999 then padded 4 year.toNat
  else (if year < 0 then '-' else '+') :: padded 4 year.natAbs

/-- The fraction of a timestamp, with the fewest of 0, 3, 6 or 9 digits that are exact. -/
def fractionText (nanos : Nat) : List Char :=
  if nanos = 0 then []
  else if nanos % 1000000 = 0 then '.' :: padded 3 (nanos / 1000000)
  else if nanos % 1000 = 0 then '.' :: padded 6 (nanos / 1000)
  else '.' :: padded 9 nanos

/-- The instant as a timestamp in universal time. -/
def toText (t : Instant) : String :=
  let date := Date.ofDays t.day
  let leap : Nat := t.nanos.val / 1000000000
  let second := t.second.val % 60 + leap
  .ofList (yearText date.year ++ '-' :: padded 2 date.month ++ '-' :: padded 2 date.day ++
    'T' :: padded 2 (t.second.val / 3600) ++ ':' :: padded 2 (t.second.val / 60 % 60) ++
    ':' :: padded 2 second ++ fractionText (t.nanos.val % 1000000000) ++ ['Z'])

end ArtifactGC.Instant
