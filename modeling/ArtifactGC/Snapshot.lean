import ArtifactGC.Artifact
import ArtifactGC.Event
import ArtifactGC.Execution

/-!
# Snapshots

The content of a metadata store as it is saved and loaded.
-/

namespace ArtifactGC

/-- The content of a metadata store. -/
structure Snapshot where
  /-- Artifact records in the order of their first insertion. -/
  artifacts : List Artifact
  /-- Execution records in the order of their first insertion. -/
  executions : List Execution
  /-- Events in the order of their insertion. -/
  events : List Event
deriving DecidableEq, Repr

end ArtifactGC
