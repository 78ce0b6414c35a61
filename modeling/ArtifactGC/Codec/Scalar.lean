import ArtifactGC.Double
import ArtifactGC.Id
import ArtifactGC.Instant
import ArtifactGC.Json.Record

/-!
# Numbers, identifiers and instants in JSON

How a number is written with digits, and how identifiers and instants are written as texts, is
decided by the libraries that a program is built with. `ScalarTexts` is what the codecs of records
need of them, and nothing is assumed about it here but that no numeral reads as an infinity or a
NaN. A double that is not finite has no number and is written as `null`, which reads back as
nothing. Identifiers and instants are strings.
-/

namespace ArtifactGC

/-- A double that is neither infinite nor a NaN. -/
abbrev FiniteDouble := { d : Double // d.isFinite = true }

/-- How scalars are written and read. -/
class ScalarTexts where
  /-- The literal of an integer. -/
  writeInteger : Int64 → NumberLiteral
  /-- The integer that a literal names, if it names one. -/
  readInteger? : NumberLiteral → Option Int64
  /-- The literal of a finite double. -/
  writeDouble : FiniteDouble → NumberLiteral
  /-- The double that a literal names, if it is finite. -/
  readDouble? : NumberLiteral → Option FiniteDouble
  /-- The text of an identifier. -/
  writeId {kind : RecordKind} : Id kind → String
  /-- The identifier that a text names, if it names one. -/
  readId? {kind : RecordKind} : String → Option (Id kind)
  /-- The text of an instant. -/
  writeInstant : Instant → String
  /-- The instant that a text names, if it names one. -/
  readInstant? : String → Option Instant

/-- Integers, identifiers and instants read back from what is written. Of doubles nothing is said:
whether one reads back is asked of each of them by itself, by `Double.IsReadBack`. -/
class LawfulScalarTexts [ScalarTexts] : Prop where
  /-- An integer reads back from its literal. -/
  readInteger?_writeInteger (n : Int64) :
    ScalarTexts.readInteger? (ScalarTexts.writeInteger n) = some n
  /-- An identifier reads back from its text. -/
  readId?_writeId {kind : RecordKind} (id : Id kind) :
    ScalarTexts.readId? (ScalarTexts.writeId id) = some id
  /-- An instant reads back from its text. -/
  readInstant?_writeInstant (t : Instant) :
    ScalarTexts.readInstant? (ScalarTexts.writeInstant t) = some t

variable [ScalarTexts]

/-- The double reads back from its literal, if it has one. -/
def Double.IsReadBack (d : Double) : Prop :=
  ∀ h : d.isFinite = true,
    ScalarTexts.readDouble? (ScalarTexts.writeDouble ⟨d, h⟩) = some ⟨d, h⟩

instance (d : Double) : Decidable d.IsReadBack :=
  inferInstanceAs (Decidable (∀ _ : d.isFinite = true, _))

instance : JsonCodec Int64 where
  toJson n := .number (ScalarTexts.writeInteger n)
  ofJson?
    | .number n => ScalarTexts.readInteger? n
    | _ => none

instance : JsonCodec Double where
  toJson d := if h : d.isFinite = true then .number (ScalarTexts.writeDouble ⟨d, h⟩) else .null
  ofJson?
    | .number n => (ScalarTexts.readDouble? n).map (·.val)
    | _ => none

instance {kind : RecordKind} : JsonCodec (Id kind) where
  toJson id := .text (ScalarTexts.writeId id)
  ofJson?
    | .string s => s.bind ScalarTexts.readId?
    | _ => none

instance : JsonCodec Instant where
  toJson t := .text (ScalarTexts.writeInstant t)
  ofJson?
    | .string s => s.bind ScalarTexts.readInstant?
    | _ => none

end ArtifactGC
