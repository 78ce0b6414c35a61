import ArtifactGC.PropertyValue

/-!
# Garbage collection policies

A policy is configuration and can be written down wrongly: with no retention rule, with two, or
with an order of keeping that is not known. `Policy.retention` tells which rule a policy selects
or what is wrong with it.
-/

namespace ArtifactGC

/-- Keeps the artifacts published most recently. -/
structure RecencyRule where
  /-- How many to keep; zero and below keep all. -/
  numArtifacts : Int64
deriving DecidableEq, Repr

/-- Which values of a property are kept first. -/
inductive KeepOrder where
  /-- Not said; the largest. -/
  | unspecified
  /-- The largest. -/
  | largest
  /-- The smallest. -/
  | smallest
  /-- Said in a way that is not understood. -/
  | unrecognized
deriving DecidableEq, Repr

/-- One level of partitioning by the values of a property. -/
structure Grouping where
  /-- The property. -/
  propertyName : String
  /-- How many values to keep per group; zero and below keep all. -/
  keepNum : Int64
  /-- Which values to keep first. -/
  keepOrder : KeepOrder
deriving DecidableEq, Repr

/-- Keeps artifacts by the values of their properties, level by level. -/
structure GroupRule where
  /-- The levels, outermost first. -/
  groupings : List Grouping
deriving DecidableEq, Repr

/-- Pipelines whose use of an artifact keeps it. -/
structure PipelineGroup where
  /-- The pipelines. -/
  pipelineIds : List String
deriving DecidableEq, Repr

/-- What a pipeline group filter is to take into account. -/
structure PipelineGroupUsage where
  /-- The groups of pipelines. -/
  pipelineGroups : List PipelineGroup
deriving DecidableEq, Repr

/-- The configuration of an output key. -/
structure Policy where
  /-- Retention by recency. -/
  recency : Option RecencyRule
  /-- Retention by property values. -/
  groups : Option GroupRule
  /-- Configuration of the pipeline group filter. -/
  usage : Option PipelineGroupUsage
deriving DecidableEq, Repr

/-- The retention rule that a policy selects. -/
inductive Retention where
  /-- Retention by recency. -/
  | recency (rule : RecencyRule)
  /-- Retention by property values. -/
  | groups (rule : GroupRule)
deriving DecidableEq, Repr

/-- Why a policy cannot be evaluated. -/
inductive PolicyError where
  /-- It selects no retention rule. -/
  | unset
  /-- It selects more than one retention rule. -/
  | ambiguous
  /-- The order of keeping at a level is not known. -/
  | unknownKeepOrder (propertyName : String)
  /-- The values of one level are of different kinds. -/
  | mixedTypes (propertyName : String) (expected found : ValueKind)
deriving DecidableEq, Repr

/-- What is wrong with a policy, in words. -/
def PolicyError.message : PolicyError → String
  | .unset => "garbage collection policy selects no retention rule"
  | .ambiguous => "garbage collection policy selects more than one retention rule"
  | .unknownKeepOrder property => "unknown keep_order in grouping on property '" ++ property ++ "'"
  | .mixedTypes property expected found =>
    "values of property '" ++ property ++ "' must share one type: expected " ++ expected.name ++
      ", found " ++ found.name

namespace Policy

/-- Keep the given number of artifacts published most recently. -/
def ofRecency (numArtifacts : Int64) : Policy := ⟨some ⟨numArtifacts⟩, none, none⟩

/-- Keep artifacts by property values. -/
def ofGroupings (groupings : List Grouping) : Policy := ⟨none, some ⟨groupings⟩, none⟩

/-- The policy with a configuration of the pipeline group filter. -/
def withUsage (policy : Policy) (usage : PipelineGroupUsage) : Policy :=
  { policy with usage := some usage }

/-- The retention rule that a policy selects: exactly one is set, and every order is known. -/
def retention (policy : Policy) : Except PolicyError Retention :=
  match policy.recency, policy.groups with
  | none, none => .error .unset
  | some _, some _ => .error .ambiguous
  | some rule, none => .ok (.recency rule)
  | none, some rule =>
    match rule.groupings.find? (·.keepOrder = .unrecognized) with
    | some grouping => .error (.unknownKeepOrder grouping.propertyName)
    | none => .ok (.groups rule)

end Policy

end ArtifactGC
