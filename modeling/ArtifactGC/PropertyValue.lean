import ArtifactGC.Double.Decimal
import ArtifactGC.Text.Quoted
import ArtifactGC.Ascending
import ArtifactGC.Hasher
import Std.Data.HashSet

/-!
# Property values

Artifacts carry named values of four kinds. Values are totally ordered: first by kind, then by
the order of the kind, which for doubles is the total order of their bits and for texts that of
their code points. Values count as equal when the order does not tell them apart, and they are
hashed by their kind and the bits of their content. Both come to the same, so a set that hashes
values and one that orders them hold the same number of elements.
-/

namespace ArtifactGC

/-- The kind of a property value. The values of one grouping level share a kind. -/
inductive ValueKind where
  /-- Integers of 64 bits. -/
  | int
  /-- Binary floating-point numbers. -/
  | double
  /-- Texts. -/
  | string
  /-- Truth values. -/
  | bool
deriving DecidableEq, Repr

namespace ValueKind

/-- The name of a kind in messages. -/
def name : ValueKind → String
  | .int => "int"
  | .double => "double"
  | .string => "string"
  | .bool => "bool"

/-- The position of a kind in the order of kinds. -/
def rank : ValueKind → Nat
  | .int => 0
  | .double => 1
  | .string => 2
  | .bool => 3

end ValueKind

/-- A property value. -/
inductive PropertyValue where
  /-- An integer. -/
  | int (value : Int64)
  /-- A floating-point number. -/
  | double (value : Double)
  /-- A text. -/
  | string (value : String)
  /-- A truth value. -/
  | bool (value : Bool)
deriving DecidableEq, Repr

namespace PropertyValue

/-- The kind of a value. -/
def kind : PropertyValue → ValueKind
  | .int _ => .int
  | .double _ => .double
  | .string _ => .string
  | .bool _ => .bool

/-- The order of values: by kind, and within a kind by content. -/
def compare : PropertyValue → PropertyValue → Ordering
  | .int a, .int b => Ord.compare a b
  | .double a, .double b => Ord.compare a b
  | .string a, .string b => Ord.compare a b
  | .bool a, .bool b => Ord.compare a b
  | a, b => Ord.compare a.kind.rank b.kind.rank

instance : Ord PropertyValue := ⟨compare⟩

instance : BEq PropertyValue := ⟨fun v w => (Ord.compare v w).isEq⟩

/-- The content of a value, bit for bit. -/
def content : PropertyValue → Chunk
  | .int n => .word n.toUInt64
  | .double d => .word d.bits
  | .string s => .text s.toUTF8
  | .bool b => .byte (if b then 1 else 0)

/-- What is hashed of a value: its kind, and then its content. -/
def chunks (v : PropertyValue) : List Chunk := [.position v.kind.rank, v.content]

/-- The hash of a value. -/
def hashBy (hasher : Hasher) (v : PropertyValue) : UInt64 := hasher.hash v.chunks

/-- The readable form of a value; texts are quoted. -/
def display : PropertyValue → String
  | .int n => toString n.toInt
  | .double d => d.display
  | .string s => Text.quoted s
  | .bool b => toString b

/-- How many different values a hash set of them holds that uses a given hasher. -/
def countHashedBy (hasher : Hasher) (values : List PropertyValue) : Nat :=
  letI : Hashable PropertyValue := ⟨hashBy hasher⟩
  (Std.HashSet.ofList values).size

/-- How many different values a hash set of them holds. -/
def countHashed (values : List PropertyValue) : Nat := countHashedBy .mixing values

/-- How many different values an ordered set of them holds. -/
def countOrdered (values : List PropertyValue) : Nat :=
  (ascending values).length

end PropertyValue

end ArtifactGC
