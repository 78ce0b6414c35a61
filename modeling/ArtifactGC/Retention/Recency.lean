import ArtifactGC.Artifact
import ArtifactGC.Policy

/-!
# Retention by recency

Of a list of artifacts the newest are kept, counted by their time of publication. The cutoff is
the time of the last one that has to be kept; everything strictly older is not kept, so all
artifacts that share the cutoff survive together.
-/

namespace ArtifactGC

/-- Insertion into a list of times that ascends, equal times side by side. -/
def insertTime (t : Instant) : List Instant → List Instant
  | [] => [t]
  | u :: us => if u.isBefore t then u :: insertTime t us else t :: u :: us

/-- Times in ascending order, with repetitions. -/
def sortTimes (times : List Instant) : List Instant := times.foldr insertTime []

/-- The time of publication of the artifact that is `keep`-th from the newest. -/
def cutoff? (keep : Nat) (artifacts : List Artifact) : Option Instant :=
  (sortTimes (artifacts.map (·.createTime)))[artifacts.length - keep]?

/-- The artifacts that are not among the newest, in their order. A count of zero or below, and
one that the list does not exceed, keep all. -/
def notRecent (rule : RecencyRule) (artifacts : List Artifact) : List Artifact :=
  let keep := rule.numArtifacts.toInt.toNat
  if keep = 0 ∨ artifacts.length ≤ keep then []
  else
    match cutoff? keep artifacts with
    | some cutoff => artifacts.filter (·.createTime.isBefore cutoff)
    | none => []

end ArtifactGC
