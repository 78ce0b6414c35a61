/-!
# Record identifiers

Artifacts and executions are identified by 128-bit numbers. The type of an identifier says which
kind of record it belongs to, so the two cannot be confused. In text an identifier is written
with 26 digits of base 32, most significant first; the digits are the decimal ones and the
letters without `I`, `L`, `O` and `U`. Reading takes either case and reduces the number that the
26 digits name, which may have 130 bits, to its last 128.
-/

namespace ArtifactGC

/-- What an identifier names. -/
inductive RecordKind where
  /-- A unit of pipeline output. -/
  | artifact
  /-- A run of a pipeline node. -/
  | execution
deriving DecidableEq, Repr

/-- The identifier of a record. -/
structure Id (kind : RecordKind) where
  /-- The number that identifies the record among those of its kind. -/
  number : BitVec 128
deriving DecidableEq, Repr, Hashable

/-- The identifier of an artifact. -/
abbrev ArtifactId := Id .artifact

/-- The identifier of an execution. -/
abbrev ExecutionId := Id .execution

namespace Id

variable {kind : RecordKind}

instance : LawfulBEq (Id kind) := inferInstance

instance : Ord (Id kind) := ⟨fun a b => compare a.number.toNat b.number.toNat⟩

instance : Std.TransOrd (Id kind) where
  eq_swap {a b} := by
    change compare a.number.toNat b.number.toNat = (compare b.number.toNat a.number.toNat).swap
    exact Std.OrientedCmp.eq_swap
  isLE_trans {a b c} h h' := by
    change (compare a.number.toNat c.number.toNat).isLE = true
    exact Std.TransCmp.isLE_trans (b := b.number.toNat) h h'

instance : Std.LawfulEqOrd (Id kind) where
  eq_of_compare {a b} h := by
    have h : a.number.toNat = b.number.toNat := Std.LawfulEqOrd.eq_of_compare h
    cases a; cases b
    exact congrArg _ (BitVec.eq_of_toNat_eq h)

/-- The digits of base 32 in ascending order of their value. -/
def alphabet : List Char := "0123456789ABCDEFGHJKMNPQRSTVWXYZ".toList

/-- The digit of a value below 32. -/
def digit (n : Nat) : Char := alphabet.getD n '0'

/-- The value of a digit in either case. -/
def digitValue? (c : Char) : Option Nat := alphabet.idxOf? c.toUpper

/-- The last `count` digits of a number in base 32, most significant first. -/
def digits : (count : Nat) → Nat → List Char
  | 0, _ => []
  | count + 1, n => digits count (n / 32) ++ [digit (n % 32)]

/-- The identifier in text. -/
def toText (id : Id kind) : String := .ofList (digits 26 id.number.toNat)

/-- The number that digits of base 32 name after those of `n`. -/
def readDigits? (n : Nat) : List Char → Option Nat
  | [] => some n
  | c :: cs => do readDigits? (n * 32 + (← digitValue? c)) cs

/-- The identifier that a text names. -/
def ofText? (text : String) : Option (Id kind) :=
  let cs := text.toList
  if cs.length = 26 then (readDigits? 0 cs).map fun n => ⟨BitVec.ofNat 128 n⟩ else none

/-- The identifier with the kind of its record in front, as it stands in messages. -/
def display (id : Id kind) : String :=
  match kind with
  | .artifact => "artifact-" ++ id.toText
  | .execution => "execution-" ++ id.toText

end Id

end ArtifactGC
