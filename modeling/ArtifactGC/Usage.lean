import ArtifactGC.Ascending
import ArtifactGC.Procedure

/-!
# Artifacts in use

An artifact that a new or running execution consumes must not be deleted. Of some candidates,
`retainUnused` keeps those that are not in use, given events that may also concern other
artifacts. The executions that the events name are asked for once, all together; if one of them
is not known, nothing can be said about its input and the whole step fails.
-/

namespace ArtifactGC

/-- The events by which an execution consumes one of the candidates. -/
def consumptions (candidates : List Artifact) (events : List Event) : List Event :=
  events.filter fun e => e.kind.isInput ∧ e.artifactId ∈ candidates.map (·.id)

/-- Whether an execution is active, if it is among some records; of two records with its
identifier the later counts. -/
def activity? (executions : List Execution) (id : ExecutionId) : Option Bool :=
  (executions.findRev? (·.id = id)).map (·.isActive)

/-- The artifacts that an active execution consumes. -/
def artifactsInUse (executions : List Execution) (consumed : List Event) : List ArtifactId :=
  (consumed.filter fun e => activity? executions e.executionId = some true).map (·.artifactId)

/-- The first event whose execution is not among some records. -/
def firstUnknown? (executions : List Execution) (consumed : List Event) : Option Event :=
  consumed.find? fun e => activity? executions e.executionId = none

/-- The candidates that no active execution consumes, in their order. -/
def retainUnused (candidates : List Artifact) (events : List Event) :
    Procedure (List Artifact) := do
  let consumed := consumptions candidates events
  if consumed = [] then
    return candidates
  let executions ← Procedure.executions (ascending (consumed.map (·.executionId)))
  match firstUnknown? executions consumed with
  | some e =>
    Procedure.noteAll [.executionMissing e.artifactId e.executionId]
    .failed (.missingExecution e.executionId)
  | none =>
    let used := artifactsInUse executions consumed
    return candidates.filter (·.id ∉ used)

end ArtifactGC
