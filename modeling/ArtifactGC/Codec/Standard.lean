import ArtifactGC.Codec.Scalar
import ArtifactGC.Double.Reading
import ArtifactGC.Instant.Text

/-!
# A choice of texts for scalars

`ScalarTexts.standard` is the choice that the program runs with. An integer is a literal without
point and exponent. A finite double is written with its shortest digits and always with a point or
an exponent; plain notation is kept while the decimal exponent lies between -5 and 15. It is read in
a few operations that round one after another, so that not every double reads back. Identifiers have
26 digits of base 32, and instants are timestamps.
-/

namespace ArtifactGC

/-- The integer of a literal without point and exponent, unless it is the negative zero or out of
range. -/
def readInteger? : NumberLiteral → Option Int64
  | ⟨negative, coefficient, 0, none⟩ =>
    let n : Int := if negative then -coefficient else coefficient
    if (negative ∧ coefficient = 0) ∨ n < Int64.minValue.toInt ∨ Int64.maxValue.toInt < n then none
    else some (.ofInt n)
  | _ => none

namespace Double

/-- The least decimal exponent that is written in plain notation. -/
def minPlainExponent : Int := -5

/-- The greatest decimal exponent that is written in plain notation. -/
def maxPlainExponent : Int := 15

/-- The number literal of a decimal number. -/
def literal (x : Decimal) : NumberLiteral :=
  let size := (Nat.toDigits 10 x.coefficient).length
  let leading : Int := x.exponent + size - 1
  if minPlainExponent ≤ leading ∧ leading ≤ maxPlainExponent then
    if 0 ≤ x.exponent then ⟨x.negative, x.coefficient * Nat.pow 10 (x.exponent.toNat + 1), 1, none⟩
    else ⟨x.negative, x.coefficient, (-x.exponent).toNat, none⟩
  else ⟨x.negative, x.coefficient, size - 1, some leading⟩

/-- The double as a finite one, if it is. -/
def finite? (d : Double) : Option FiniteDouble :=
  if h : d.isFinite = true then some ⟨d, h⟩ else none

end Double

/-- The texts of scalars that the program runs with. -/
@[reducible] def ScalarTexts.standard : ScalarTexts where
  writeInteger n := .ofInt n.toInt
  readInteger? := ArtifactGC.readInteger?
  writeDouble d := Double.literal (d.val.shortest .even)
  readDouble? n := (Double.ofLiteral? n).bind Double.finite?
  writeId := Id.toText
  readId? := Id.ofText?
  writeInstant := Instant.toText
  readInstant? := Instant.ofText?

end ArtifactGC
