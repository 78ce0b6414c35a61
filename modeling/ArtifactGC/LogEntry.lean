import ArtifactGC.Failure
import ArtifactGC.Node
import ArtifactGC.StorageError

/-!
# Log entries

What an operator is told about a pass, beside its outcome.
-/

namespace ArtifactGC

/-- How serious a log entry is. -/
inductive LogLevel where
  /-- Something is odd, and the pass goes on. -/
  | warn
  /-- Something is wrong. -/
  | error
deriving DecidableEq, Repr

/-- Something that an operator should know. -/
inductive LogEntry where
  /-- An output key was skipped because its policy cannot be evaluated. -/
  | policyInvalid (outputKey : String) (cause : PolicyError)
  /-- The pipeline group filter answered with an artifact that it was not asked about. -/
  | notACandidate (artifact : ArtifactId)
  /-- An event names an execution that the store does not know. -/
  | executionMissing (artifact : ArtifactId) (execution : ExecutionId)
  /-- The content of an artifact could not be removed. -/
  | removalFailed (artifact : ArtifactId) (cause : StorageError)
  /-- A pass was given up. -/
  | passAborted (cause : Failure)
  /-- The pass of a node ended without a result. -/
  | taskFailed (node : NodeUid)
deriving DecidableEq, Repr

namespace LogEntry

/-- How serious an entry is. -/
def level : LogEntry → LogLevel
  | .notACandidate _ | .removalFailed .. => .warn
  | _ => .error

/-- The text of an entry. -/
def message : LogEntry → String
  | .policyInvalid .. => "invalid garbage collection policy, output key skipped"
  | .notACandidate _ => "pipeline group filter returned a non-candidate, dropped"
  | .executionMissing .. => "event references an execution missing from the store"
  | .removalFailed .. => "removal failed, artifact left live"
  | .passAborted _ => "gc pass aborted"
  | .taskFailed _ => "gc task failed"

/-- The details of an entry by name. -/
def fields : LogEntry → List (String × String)
  | .policyInvalid key cause =>
    [("output_key", key), ("kind", (Failure.policy cause).kind.label), ("error", cause.message)]
  | .notACandidate artifact => [("artifact_id", artifact.display)]
  | .executionMissing artifact execution =>
    [("artifact_id", artifact.display), ("execution_id", execution.display)]
  | .removalFailed artifact cause =>
    [("artifact_id", artifact.display), ("error", cause.message)]
  | .passAborted cause => [("kind", cause.kind.label), ("error", cause.message)]
  | .taskFailed node => [("node", node.display)]

end LogEntry

end ArtifactGC
