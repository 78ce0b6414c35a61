import ArtifactGC.Artifact
import ArtifactGC.Event
import ArtifactGC.Execution
import ArtifactGC.Failure
import ArtifactGC.StorageError

/-!
# Requests to the services of a pass

A pass works with a metadata store, with the storage of the artifacts and with a filter that
knows which artifacts other pipelines use. Everything it asks of them is a request, and each
request has its own type of answer. A store answers with its records or with an error, and so do
storage and filter.
-/

namespace ArtifactGC

/-- The live output artifacts of a node by output key. -/
abbrev LiveOutputs := KeyMap (List Artifact)

/-- What a pass asks of its services. -/
inductive Request where
  /-- The live output artifacts of a node. -/
  | liveOutputs (node : NodeUid)
  /-- The events on any of some artifacts. -/
  | events (artifacts : List ArtifactId)
  /-- The records of some executions. -/
  | executions (ids : List ExecutionId)
  /-- Write artifact records, all in one batch. -/
  | put (artifacts : List Artifact)
  /-- The candidates that the configured pipeline groups do not use. -/
  | unusedInGroups (usage : Option PipelineGroupUsage) (candidates : List Artifact)
  /-- Whether a location is a directory. -/
  | isDirectory (uri : String)
  /-- Whether there is anything at a location. -/
  | isPresent (uri : String)
  /-- Remove a file. -/
  | remove (uri : String)
  /-- Remove a directory and everything below it. -/
  | removeRecursive (uri : String)
deriving DecidableEq, Repr

/-- The answer to a request. -/
abbrev Request.Answer : Request → Type
  | .liveOutputs _ => Except StoreError LiveOutputs
  | .events _ => Except StoreError (List Event)
  | .executions _ => Except StoreError (List Execution)
  | .put _ => Except StoreError Unit
  | .unusedInGroups .. => Except Failure (List Artifact)
  | .isDirectory _ => Except StorageError Bool
  | .isPresent _ => Except StorageError Bool
  | .remove _ => Except StorageError Unit
  | .removeRecursive _ => Except StorageError Unit

end ArtifactGC
