import ArtifactGC.Id

/-!
# Events

An event says that an execution consumed or published an artifact. A published artifact is
listed under the output key of its event. A pending output is not published yet.
-/

namespace ArtifactGC

/-- How an execution and an artifact are associated. -/
inductive EventKind where
  /-- Consumed. -/
  | input
  /-- Published. -/
  | output
  /-- Consumed as declared. -/
  | declaredInput
  /-- Published as declared. -/
  | declaredOutput
  /-- Consumed by the system. -/
  | internalInput
  /-- Published by the system. -/
  | internalOutput
  /-- To be published. -/
  | pendingOutput
deriving DecidableEq, Repr

namespace EventKind

/-- Whether the execution consumes the artifact. -/
def isInput : EventKind → Bool
  | .input | .declaredInput | .internalInput => true
  | _ => false

/-- Whether the execution published the artifact. -/
def isOutput : EventKind → Bool
  | .output | .declaredOutput | .internalOutput => true
  | _ => false

end EventKind

/-- The association of an artifact with an execution. -/
structure Event where
  /-- The artifact. -/
  artifactId : ArtifactId
  /-- The execution. -/
  executionId : ExecutionId
  /-- How they are associated. -/
  kind : EventKind
  /-- The output key that the artifact was published under. -/
  outputKey : Option String
deriving DecidableEq, Repr

namespace Event

/-- The event of an execution that consumes an artifact. -/
def consumed (artifact : ArtifactId) (execution : ExecutionId) : Event :=
  ⟨artifact, execution, .input, none⟩

/-- The event of an execution that published an artifact under an output key. -/
def published (artifact : ArtifactId) (execution : ExecutionId) (key : String) : Event :=
  ⟨artifact, execution, .output, some key⟩

/-- The event with another kind. -/
def withKind (e : Event) (kind : EventKind) : Event := { e with kind }

end Event

end ArtifactGC
