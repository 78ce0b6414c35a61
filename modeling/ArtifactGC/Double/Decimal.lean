import ArtifactGC.Double

/-!
# Decimal numerals of doubles

A number is rounded to the double nearest to it, a tie going to the even significand, and to none
when it lies beyond the largest finite double. A finite double is written with the fewest digits
that are rounded back to it, and among those with the numeral nearest to it. All of this is exact: a
double is `m * 2 ^ q`, a numeral `c * 10 ^ e`, and all comparisons are made between natural numbers.
-/

namespace ArtifactGC

/-- The decimal number `± coefficient * 10 ^ exponent`. -/
structure Decimal where
  /-- Whether it carries a minus sign. -/
  negative : Bool
  /-- The digits, read as a natural number. -/
  coefficient : Nat
  /-- The power of ten of the last digit. -/
  exponent : Int
deriving DecidableEq, Repr

/-- Which of two equally near numerals is taken. -/
inductive Tie where
  /-- The one whose last digit is even. -/
  | even
  /-- The larger one. -/
  | up
deriving DecidableEq, Repr

namespace Double

/-- The largest `e` with `2 ^ e ≤ num / den`, for positive `num` and `den`. -/
def floorLog2 (num den : Nat) : Int :=
  let e : Int := num.log2 - den.log2
  if num <<< (-e).toNat < den <<< e.toNat then e - 1 else e

/-- The integer nearest to `num / den`; a tie goes to the even one. -/
def divideToEven (num den : Nat) : Nat :=
  let floor := num / den
  let rest := 2 * (num % den)
  if rest < den then floor
  else if den < rest then floor + 1
  else floor + floor % 2

/-- The magnitude bits of the double nearest to `num / den`, if it is finite. -/
def nearest? (num den : Nat) : Option Nat :=
  if num = 0 then some 0
  else
    let q := max (floorLog2 num den - 52) (-1074)
    let m := divideToEven (num <<< (-q).toNat) (den <<< q.toNat)
    let magnitude := (q + 1074).toNat * leadingBit + m
    if magnitude < infiniteMagnitude then some magnitude else none

/-- The numbers nearer to `m * 2 ^ q` than to its neighbours, as bounds on the multiples of
`2 ^ (q - 2)`. Below a power of two the gap is half as wide. -/
def readBackBounds (d : Double) : Nat × Nat :=
  let narrow := d.magnitude % leadingBit = 0 ∧ 1 < d.exponentField
  (4 * d.significand - (if narrow then 1 else 2), 4 * d.significand + 2)

/-- Factors `a` and `b` such that `c * 10 ^ unit ≤ x * 2 ^ q ↔ c * a ≤ x * b`. -/
def commonScale (unit q : Int) : Nat × Nat :=
  (Nat.pow 10 unit.toNat <<< (-q).toNat, Nat.pow 10 (-unit).toNat <<< q.toNat)

/-- The largest `k` with `10 ^ k` not above the value of a positive finite number. -/
def decimalMagnitude (d : Double) : Int :=
  let guess := ((d.significand.log2 : Int) + d.exponent) * 78913 / 0x40000
  let (a, b) := commonScale (guess + 1) d.exponent
  if a ≤ d.significand * b then guess + 1 else guess

/-- The multiple of `10 ^ unit` nearest to the value, if one reads back to the number. -/
def readBackMultiple? (tie : Tie) (d : Double) (unit : Int) : Option Nat :=
  let (a, b) := commonScale unit (d.exponent - 2)
  let (low, high) := d.readBackBounds
  let value := 4 * d.significand * b
  let below := value / a
  let readsBack (c : Nat) : Bool :=
    if d.significand % 2 = 0 then low * b ≤ c * a ∧ c * a ≤ high * b
    else low * b < c * a ∧ c * a < high * b
  match readsBack below, readsBack (below + 1) with
  | true, false => some below
  | false, true => some (below + 1)
  | false, false => none
  | true, true =>
    match compare (2 * value) ((2 * below + 1) * a), tie with
    | .lt, _ => some below
    | .gt, _ => some (below + 1)
    | .eq, .even => some (below + below % 2)
    | .eq, .up => some (below + 1)

/-- A number without its last zero digits, at most `limit` of them, with their count. -/
def stripZeros : (limit : Nat) → Nat → Nat × Nat
  | 0, c => (c, 0)
  | limit + 1, c =>
    if c % 10 = 0 then
      let (c, zeros) := stripZeros limit (c / 10)
      (c, zeros + 1)
    else (c, 0)

/-- The numeral with the fewest digits that reads back to a finite number. -/
def shortest (tie : Tie) (d : Double) : Decimal :=
  if d.significand = 0 then ⟨d.isNegative, 0, 0⟩
  else
    let k := d.decimalMagnitude
    let found := (List.range 17).findSome? fun (places : Nat) =>
      (d.readBackMultiple? tie (k - places)).map (·, k - places)
    let (c, unit) := found.getD (0, 0)
    let (c, zeros) := stripZeros 17 c
    ⟨d.isNegative, c, unit + zeros⟩

/-- The readable form: shortest digits, never an exponent, and no fraction for integers. -/
def display (d : Double) : String :=
  if d.isNaN then "NaN"
  else
    let sign := if d.isNegative then "-" else ""
    if ¬ d.isFinite then sign ++ "inf"
    else
      let x := d.shortest .up
      let digits := Nat.toDigits 10 x.coefficient
      if 0 ≤ x.exponent then
        sign ++ .ofList (digits ++ List.replicate x.exponent.toNat '0')
      else
        let places := (-x.exponent).toNat
        let padded := List.replicate (places + 1 - digits.length) '0' ++ digits
        let whole := padded.length - places
        sign ++ .ofList (padded.take whole ++ '.' :: padded.drop whole)

end Double

end ArtifactGC
