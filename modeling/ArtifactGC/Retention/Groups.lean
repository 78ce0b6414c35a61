import ArtifactGC.Artifact
import ArtifactGC.Policy

/-!
# Retention by property values

Artifacts are partitioned level by level. At each level every surviving group falls into one
bucket per value of the level's property and one for the artifacts without it. A limit keeps the
buckets with the best values, and the bucket without a value when fewer values than the limit
are there; without a limit all buckets are kept. The kept buckets are the groups of the next
level, and what is left after the last level is kept. The values met at one level have to be of
one kind in all its groups together.
-/

namespace ArtifactGC

/-- The values of a property in a list of artifacts, in their order. -/
def valuesOf (property : String) (artifacts : List Artifact) : List PropertyValue :=
  artifacts.filterMap (·.property? property)

/-- The artifacts of a group that have a given value of a property, or none. -/
def bucket (property : String) (group : List Artifact) (value : Option PropertyValue) :
    List Artifact :=
  group.filter (·.property? property = value)

/-- The kind of the first value and that of the first value that differs from it in kind. -/
def kindClash? : List PropertyValue → Option (ValueKind × ValueKind)
  | [] => none
  | v :: vs => (vs.find? (·.kind ≠ v.kind)).map fun w => (v.kind, w.kind)

namespace Grouping

/-- How many values a level keeps per group; zero means all. -/
def limit (level : Grouping) : Nat := level.keepNum.toInt.toNat

/-- The values that a level keeps of the ascending values of a group, in the order in which
their buckets are listed. -/
def keptValues (level : Grouping) (values : List PropertyValue) :
    Except PolicyError (List PropertyValue) :=
  if level.limit = 0 then .ok values
  else
    match level.keepOrder with
    | .unspecified | .largest => .ok (values.reverse.take level.limit)
    | .smallest => .ok (values.take level.limit)
    | .unrecognized => .error (.unknownKeepOrder level.propertyName)

/-- Whether a level keeps the artifacts without its property, beside a number of values. -/
def keepsMissing (level : Grouping) (keptCount : Nat) : Bool :=
  level.limit = 0 || keptCount < level.limit

/-- The buckets of a group that a level keeps. -/
def subgroups (level : Grouping) (group : List Artifact) :
    Except PolicyError (List (List Artifact)) := do
  let kept ← level.keptValues (ascending (valuesOf level.propertyName group))
  let missing := bucket level.propertyName group none
  return kept.map (fun value => bucket level.propertyName group (some value)) ++
    if level.keepsMissing kept.length ∧ missing ≠ [] then [missing] else []

/-- The buckets of all groups that a level keeps, if its values are of one kind. -/
def refine (level : Grouping) (groups : List (List Artifact)) :
    Except PolicyError (List (List Artifact)) :=
  match kindClash? (valuesOf level.propertyName groups.flatten) with
  | some (expected, found) => .error (.mixedTypes level.propertyName expected found)
  | none => do return (← groups.mapM level.subgroups).flatten

end Grouping

/-- The groups that survive all levels. -/
def survivingGroups : List Grouping → List (List Artifact) →
    Except PolicyError (List (List Artifact))
  | [], groups => .ok groups
  | level :: levels, groups => do survivingGroups levels (← level.refine groups)

/-- The artifacts that are in no surviving group, in their order. -/
def notInGroups (rule : GroupRule) (artifacts : List Artifact) :
    Except PolicyError (List Artifact) := do
  let groups ← survivingGroups rule.groupings [artifacts]
  let kept := groups.flatten.map (·.id)
  return artifacts.filter (·.id ∉ kept)

end ArtifactGC
