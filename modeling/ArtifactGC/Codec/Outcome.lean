import ArtifactGC.Codec.Scalar
import ArtifactGC.Outcome

/-!
# Outcomes in JSON

An outcome is one object: the member `outcome` names which one it is, and the members of its
report, or the class and message of its failure, stand beside it. It may also be a list that
starts with the name. Because the name may come last, everything beside it is held until it is
known; so all of it has to be readable, its nesting is limited, and its numbers are finite.
-/

namespace ArtifactGC

variable [ScalarTexts]

namespace FailureKind

/-- The name of a class in JSON. -/
def jsonName : FailureKind → String
  | .configuration => "configuration"
  | .consistency => "consistency"
  | .store => "store"
  | .wiring => "wiring"

/-- The class of a name in JSON. -/
def ofJsonName? : String → Option FailureKind
  | "configuration" => some .configuration
  | "consistency" => some .consistency
  | "store" => some .store
  | "wiring" => some .wiring
  | _ => none

end FailureKind

instance : JsonCodec FailureKind where
  toJson kind := .text kind.jsonName
  ofJson? j := j.choice?.bind FailureKind.ofJsonName?

namespace PurgeReport

/-- The members of a report. -/
def members (report : PurgeReport) : List (String × Json) :=
  [("deleted", toJson report.deleted), ("marked_external", toJson report.markedExternal),
    ("failed", toJson report.failed)]

end PurgeReport

instance : JsonCodec PurgeReport where
  toJson report := .record report.members
  ofJson? j := do
    let field ← j.fields? ["deleted", "marked_external", "failed"]
    some {
      deleted := ← Json.required (field "deleted")
      markedExternal := ← Json.required (field "marked_external")
      failed := ← Json.required (field "failed") }

namespace Json

/-- How many levels of lists and objects are held at most. -/
def maxHeldDepth : Nat := 127

/-- Whether a value can be held before its meaning is known: its strings hold text and its
numbers are finite. -/
def isHoldable : Json → Bool
  | .null => true
  | .bool _ => true
  | .number n => (ScalarTexts.readDouble? n).isSome
  | .string s => s.isSome
  | .array items => areItemsHoldable items
  | .object members => areMembersHoldable members
where
  /-- Whether all values of a list can be held. -/
  areItemsHoldable : List Json → Bool
    | [] => true
    | item :: items => item.isHoldable && areItemsHoldable items
  /-- Whether all members of an object can be held. -/
  areMembersHoldable : List (Option String × Json) → Bool
    | [] => true
    | (name, value) :: members => name.isSome && value.isHoldable && areMembersHoldable members

/-- The tag of a value and what stands beside it. -/
def tagged? (tag : String) : Json → Option (String × Json)
  | .object members =>
    match members.filter (·.1 = some tag) with
    | [(_, .string (some name))] => some (name, .object (members.filter (·.1 ≠ some tag)))
    | _ => none
  | .array (.string (some name) :: items) => some (name, .array items)
  | _ => none

/-- The name that a held value chooses; there an empty object may stand for `null`. -/
def heldChoice? : Json → Option String
  | .object [(name, .object [])] => name
  | j => j.choice?

end Json

instance : JsonCodec Outcome where
  toJson
    | .noPolicy => .record [("outcome", .text "no_policy")]
    | .collected report => .record (("outcome", .text "collected") :: report.members)
    | .aborted kind message => .record [("outcome", .text "aborted"), ("kind", toJson kind),
        ("message", toJson message)]
  ofJson? j := do
    if Json.maxHeldDepth < j.depth ∨ ¬ j.isHoldable then none
    let (name, beside) ← j.tagged? "outcome"
    match name with
    | "no_policy" =>
      match beside with
      | .array (_ :: _) => none
      | _ => some .noPolicy
    | "collected" => (ofJson? beside).map .collected
    | "aborted" => do
      let field ← beside.fields? ["kind", "message"]
      let kind ← (← field "kind").heldChoice?.bind FailureKind.ofJsonName?
      some (.aborted kind (← Json.required (field "message")))
    | _ => none

end ArtifactGC
