import ArtifactGC.Candidates
import ArtifactGC.Purge

/-!
# Passes

A plan lists what a pass would delete. A pass deletes it. Only a node that is not the declared
one is the caller's failure; whatever else goes wrong is contained: the pass is given up, and its
outcome says why.
-/

namespace ArtifactGC

/-- Fails unless the declared node is the one that is asked for. -/
def checkNode (uid : NodeUid) (node : NodeSpec) : Procedure Unit :=
  if uid.nodeId = node.id then .returned () else .failed (.nodeMismatch node.id uid.nodeId)

/-- The artifacts of a node that a pass would try to delete. -/
def plan (uid : NodeUid) (node : NodeSpec) : Procedure (List Artifact) := do
  checkNode uid node
  if node.policies.isEmpty then
    return []
  candidates uid node.policies

/-- Finds the candidates of a node and purges them. -/
def purgeCandidates (uid : NodeUid) (policies : KeyMap Policy) : Procedure PurgeReport := do
  let found ← candidates uid policies
  if found = [] then
    return .empty
  purge found

/-- The pass of a node. -/
def pass (uid : NodeUid) (node : NodeSpec) : Procedure Outcome := do
  checkNode uid node
  if node.policies.isEmpty then
    return .noPolicy
  match ← (purgeCandidates uid node.policies).attempt with
  | .ok report => return .collected report
  | .error e => .note (.passAborted e) (.returned (.aborted e.kind e.message))

/-- The result of a pass, given how its run ended. -/
def Ending.toResult {α : Type} : Ending α → Except Failure α
  | .returned a => .ok a
  | .failed e => .error e
  | .crashed => .error .taskFailed

end ArtifactGC
