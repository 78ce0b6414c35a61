import ArtifactGC.Id
import ArtifactGC.Instant
import ArtifactGC.KeyMap
import ArtifactGC.PropertyValue

/-!
# Artifacts

An artifact is the record of a unit of pipeline output. It is created live by the execution that
publishes it; the only transition is from live to deleted. A property is looked up among the
typed properties first and among the custom ones after that. An artifact whose property
`is_external` is numerically one belongs to someone else: its storage is never touched.
-/

namespace ArtifactGC

/-- Where an artifact stands in its lifecycle. -/
inductive ArtifactState where
  /-- Published and not deleted. -/
  | live
  /-- Deleted by garbage collection. -/
  | deleted
deriving DecidableEq, Repr

/-- The record of a unit of pipeline output. -/
structure Artifact where
  /-- Identifier, unique in a metadata store. -/
  id : ArtifactId
  /-- Where the content is stored. -/
  uri : String
  /-- When it was published. -/
  createTime : Instant
  /-- Typed properties. -/
  properties : KeyMap PropertyValue
  /-- Custom properties. -/
  customProperties : KeyMap PropertyValue
  /-- Lifecycle state. -/
  state : ArtifactState
deriving DecidableEq, Repr

namespace Artifact

/-- The property that marks an artifact as owned outside the pipeline. -/
def externalProperty : String := "is_external"

/-- The value of a property; a typed property hides a custom one of the same name. -/
def property? (a : Artifact) (name : String) : Option PropertyValue :=
  (a.properties.find? name).or (a.customProperties.find? name)

/-- Whether the artifact is owned outside the pipeline: the mark is 1, 1.0 or true. -/
def isExternal (a : Artifact) : Bool :=
  match a.property? externalProperty with
  | some (.int n) => n = 1
  | some (.double d) => d = .one
  | some (.bool b) => b
  | _ => false

/-- Whether the artifact is live. -/
def isLive (a : Artifact) : Bool := a.state = .live

/-- The artifact with a typed property set. -/
def withProperty (a : Artifact) (name : String) (value : PropertyValue) : Artifact :=
  { a with properties := a.properties.insert name value }

/-- The artifact with a custom property set. -/
def withCustomProperty (a : Artifact) (name : String) (value : PropertyValue) : Artifact :=
  { a with customProperties := a.customProperties.insert name value }

/-- The artifact marked as owned outside the pipeline. -/
def markExternal (a : Artifact) : Artifact := a.withCustomProperty externalProperty (.int 1)

/-- The artifact marked deleted. -/
def markDeleted (a : Artifact) : Artifact := { a with state := .deleted }

end Artifact

end ArtifactGC
