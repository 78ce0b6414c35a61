import ArtifactGC.Double.Decimal
import ArtifactGC.Json

/-!
# Reading doubles in a few operations

A numeral is read with no more than 64 bits for its digits. Those that fit are taken as an integer,
later ones only count. The integer is rounded to a double, which is multiplied with a power of ten
or divided by one. As each step rounds by itself, what is read may be a neighbour of the double
nearest to the numeral. Numerals beyond the largest finite double are not read.
-/

namespace ArtifactGC.Double

/-- The largest integer that digits are taken as. -/
def maxInteger : Nat := 0xffffffffffffffff

/-- The number that goes on with the first of some digits, as many as fit, and the other digits. -/
def readFitting (n : Nat) : List Char → Nat × List Char
  | [] => (n, [])
  | c :: cs =>
    let next := 10 * n + (c.toNat - '0'.toNat)
    if maxInteger < next then (n, c :: cs) else readFitting next cs

/-- The decimal number that a literal is taken as. Digits that do not fit are dropped, before and
after the point by themselves. -/
def fittingDecimal (n : NumberLiteral) : Decimal :=
  let digits := Nat.toDigits 10 n.coefficient
  let (whole, fraction) := digits.splitAt (digits.length - n.places)
  let (c, droppedWhole) := readFitting 0 whole
  let (c, droppedFraction) := readFitting c fraction
  ⟨n.negative, c, n.exponent.getD 0 - n.places + droppedWhole.length + droppedFraction.length⟩

/-- The absolute value of a finite number as a quotient. -/
def quotient (d : Double) : Nat × Nat :=
  (d.significand <<< d.exponent.toNat, 1 <<< (-d.exponent).toNat)

/-- The product of two finite numbers without their signs, if it is finite. -/
def times? (a b : Double) : Option Double :=
  (nearest? (a.quotient.1 * b.quotient.1) (a.quotient.2 * b.quotient.2)).map (ofMagnitude false)

/-- The quotient of two finite numbers without their signs, if it is finite. -/
def over? (a b : Double) : Option Double :=
  (nearest? (a.quotient.1 * b.quotient.2) (a.quotient.2 * b.quotient.1)).map (ofMagnitude false)

/-- The greatest power of ten that is a finite number. -/
def maxPower : Nat := 308

/-- The number nearest to a power of ten, if it is finite. -/
def powerOfTen? (k : Nat) : Option Double := (nearest? (Nat.pow 10 k) 1).map (ofMagnitude false)

/-- A number divided by the greatest power of ten some times, or until it is zero. -/
def shrink? : (times : Nat) → Double → Option Double
  | 0, d => some d
  | times + 1, d => do
    if d.magnitude = 0 then return d
    shrink? times (← d.over? (← powerOfTen? maxPower))

/-- A number multiplied with a power of ten. It is divided by a positive power for a negative one,
in several steps if need be. -/
def scale? (d : Double) (exponent : Int) : Option Double := do
  if 0 ≤ exponent then
    if d.magnitude = 0 then return d
    if maxPower < exponent then none
    d.times? (← powerOfTen? exponent.toNat)
  else
    let steps := (exponent.natAbs - 1) / maxPower
    (← shrink? steps d).over? (← powerOfTen? (exponent.natAbs - steps * maxPower))

/-- The double that a literal is read as, if it is finite. -/
def ofLiteral? (n : NumberLiteral) : Option Double := do
  let x := fittingDecimal n
  let integer ← nearest? x.coefficient 1
  let d ← scale? (ofMagnitude false integer) x.exponent
  return ofMagnitude x.negative d.magnitude

end ArtifactGC.Double
