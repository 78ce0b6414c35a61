import ArtifactGC.Failure

/-!
# Reports and outcomes

A report lists what a purge did with each artifact that was still live. The outcome of a pass is
such a report, or says that no output key has a policy, or that the pass was given up.
-/

namespace ArtifactGC

/-- What a purge did. -/
structure PurgeReport where
  /-- Removed from storage, or already gone, and marked deleted. -/
  deleted : List ArtifactId
  /-- Marked deleted without touching storage. -/
  markedExternal : List ArtifactId
  /-- Still in storage and left live. -/
  failed : List ArtifactId
deriving DecidableEq, Repr

namespace PurgeReport

/-- The report of a purge that found nothing to do. -/
def empty : PurgeReport := ⟨[], [], []⟩

/-- The number of records that became deleted. -/
def mutated (report : PurgeReport) : Nat := report.deleted.length + report.markedExternal.length

end PurgeReport

/-- The outcome of the pass of one node. -/
inductive Outcome where
  /-- No output key carries a policy. -/
  | noPolicy
  /-- The pass came to its end. -/
  | collected (report : PurgeReport)
  /-- The pass was given up. -/
  | aborted (kind : FailureKind) (message : String)
deriving DecidableEq, Repr

namespace Outcome

/-- The report of a pass that came to its end. -/
def report? : Outcome → Option PurgeReport
  | .collected report => some report
  | _ => none

/-- Whether the pass was given up. -/
def isAborted : Outcome → Bool
  | .aborted .. => true
  | _ => false

end Outcome

end ArtifactGC
