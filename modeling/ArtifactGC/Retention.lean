import ArtifactGC.Retention.Recency
import ArtifactGC.Retention.Groups

/-!
# Retention

The artifacts of one output key that its policy does not keep.
-/

namespace ArtifactGC

/-- The artifacts that a policy does not keep, in their order. -/
def artifactsToCollect (policy : Policy) (artifacts : List Artifact) :
    Except PolicyError (List Artifact) := do
  match ← policy.retention with
  | .recency rule => return notRecent rule artifacts
  | .groups rule => notInGroups rule artifacts

end ArtifactGC
