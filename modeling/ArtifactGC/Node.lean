import ArtifactGC.Policy
import ArtifactGC.KeyMap

/-!
# Pipeline nodes

A node is identified by its pipeline and its name there. Its declaration lists its output keys,
some of which carry a garbage collection policy.
-/

namespace ArtifactGC

/-- Identifies a node in a metadata store. -/
structure NodeUid where
  /-- The pipeline of the node. -/
  pipelineId : String
  /-- The node in its pipeline. -/
  nodeId : String
deriving DecidableEq, Repr

/-- Pipeline and node, with a point between them. -/
def NodeUid.display (uid : NodeUid) : String := uid.pipelineId ++ "." ++ uid.nodeId

/-- The declaration of an output key. -/
structure OutputSpec where
  /-- Which artifacts of the key to keep; without a policy all are kept. -/
  policy : Option Policy
deriving DecidableEq, Repr

/-- The declaration of a node. -/
structure NodeSpec where
  /-- The name of the node in its pipeline. -/
  id : String
  /-- The output keys. -/
  outputs : KeyMap OutputSpec
deriving DecidableEq, Repr

namespace NodeSpec

/-- A node without outputs. -/
def new (id : String) : NodeSpec := ⟨id, .empty⟩

/-- The node with an output key declared. -/
def withOutput (node : NodeSpec) (key : String) (policy : Option Policy) : NodeSpec :=
  { node with outputs := node.outputs.insert key ⟨policy⟩ }

/-- The output keys that carry a policy. -/
def policies (node : NodeSpec) : KeyMap Policy := node.outputs.filterMap (·.policy)

end NodeSpec

end ArtifactGC
