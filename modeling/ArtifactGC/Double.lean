/-!
# Binary floating-point numbers by their bits

A double is an IEEE 754 binary64 number and is held as its 64 bits, so that equality is equality
of the bits: the two zeros differ and every NaN payload is a value of its own. The order is the
total order of the standard: by sign, then by magnitude, so that `-NaN < -∞ < … < -0.0 < 0.0 <
… < ∞ < NaN`. It is the order of the integers `orderKey`, which determine the number.
-/

namespace ArtifactGC

/-- A binary64 number. -/
structure Double where
  /-- Sign, exponent field and fraction field, from the highest bit down. -/
  bits : UInt64
deriving DecidableEq, Repr, Inhabited

namespace Double

/-- The highest bit, which is the sign. -/
def signBit : Nat := 0x8000000000000000

/-- Whether the sign bit is set. -/
def isNegative (d : Double) : Bool := signBit ≤ d.bits.toNat

/-- The bits below the sign. -/
def magnitude (d : Double) : Nat := d.bits.toNat % signBit

/-- The magnitude of the infinities. -/
def infiniteMagnitude : Nat := 0x7ff0000000000000

/-- Whether the number is neither infinite nor a NaN. -/
def isFinite (d : Double) : Bool := d.magnitude < infiniteMagnitude

/-- Whether the bits stand for no number. -/
def isNaN (d : Double) : Bool := infiniteMagnitude < d.magnitude

/-- The number with a sign and a magnitude below the sign bit. -/
def ofMagnitude (negative : Bool) (magnitude : Nat) : Double :=
  ⟨.ofNat (if negative then signBit + magnitude else magnitude)⟩

/-- The number one. -/
def one : Double := ⟨0x3ff0000000000000⟩

/-- The lowest bit of the exponent field, and the leading bit of a significand that has one. -/
def leadingBit : Nat := 0x10000000000000

/-- The exponent field. -/
def exponentField (d : Double) : Nat := d.magnitude / leadingBit

/-- The integer `m` in the value `m * 2 ^ q` of a finite number, up to its sign. -/
def significand (d : Double) : Nat :=
  if d.exponentField = 0 then d.magnitude else d.magnitude % leadingBit + leadingBit

/-- The exponent `q` in the value `m * 2 ^ q` of a finite number. -/
def exponent (d : Double) : Int := (max d.exponentField 1 : Nat) - 1075

/-- The integer whose order is the total order of the numbers. -/
def orderKey (d : Double) : Int :=
  if d.isNegative then -(d.magnitude : Int) - 1 else d.magnitude

instance : Ord Double := ⟨fun a b => compare a.orderKey b.orderKey⟩

/-- The order key determines the bits. -/
theorem orderKey_inj {a b : Double} (h : a.orderKey = b.orderKey) : a = b := by
  have ha := a.bits.toNat_lt
  have hb := b.bits.toNat_lt
  have hbits : a.bits.toNat = b.bits.toNat := by
    simp only [orderKey, isNegative, magnitude, decide_eq_true_eq] at h
    split at h <;> split at h <;> simp only [signBit] at * <;> omega
  cases a; cases b
  exact congrArg _ (UInt64.toNat_inj.mp hbits)

end Double

end ArtifactGC
