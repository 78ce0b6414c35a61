import ArtifactGC.Id
import ArtifactGC.Node

/-!
# Executions

An execution is the record of one run of a pipeline node. While it is new or running it may
still read its inputs.
-/

namespace ArtifactGC

/-- The last known state of an execution. -/
inductive ExecutionState where
  /-- Registered and not started. -/
  | new
  /-- Under way. -/
  | running
  /-- Finished. -/
  | complete
  /-- Finished with an error. -/
  | failed
  /-- Not run, because an earlier result was reused. -/
  | cached
  /-- Stopped before its end. -/
  | canceled
deriving DecidableEq, Repr

/-- Whether an execution in this state may still read its inputs. -/
def ExecutionState.isActive : ExecutionState → Bool
  | .new | .running => true
  | _ => false

/-- The record of one run of a node. -/
structure Execution where
  /-- Identifier, unique in a metadata store. -/
  id : ExecutionId
  /-- The node that ran. -/
  node : NodeUid
  /-- The last known state. -/
  state : ExecutionState
deriving DecidableEq, Repr

/-- Whether the execution may still read its inputs. -/
def Execution.isActive (e : Execution) : Bool := e.state.isActive

end ArtifactGC
