import ArtifactGC.Id
import ArtifactGC.Policy

/-!
# What can go wrong

A failure says why a pass, a plan or a single step of one did not come to its end. Its kind is
the operational class: only wiring failures reach the caller of a pass, all others are contained
at the node that they concern.
-/

namespace ArtifactGC

/-- The operational class of a failure. -/
inductive FailureKind where
  /-- A policy is written down wrongly. -/
  | configuration
  /-- The metadata contradicts itself. -/
  | consistency
  /-- The metadata store does not work. -/
  | store
  /-- The caller or the runtime is at fault. -/
  | wiring
deriving DecidableEq, Repr

/-- The name of a class in log entries. -/
def FailureKind.label : FailureKind → String
  | .configuration => "Configuration"
  | .consistency => "Consistency"
  | .store => "Store"
  | .wiring => "Wiring"

/-- Why a metadata store refuses. -/
inductive StoreError where
  /-- It does not work at the moment. -/
  | unavailable (reason : String)
  /-- Two artifacts of a snapshot share an identifier. -/
  | duplicateArtifact (id : ArtifactId)
deriving DecidableEq, Repr

/-- Why a metadata store refuses, in words. -/
def StoreError.message : StoreError → String
  | .unavailable reason => "metadata store unavailable: " ++ reason
  | .duplicateArtifact id => "duplicate artifact id " ++ id.display

/-- Why garbage collection did not come to its end. -/
inductive Failure where
  /-- A policy cannot be evaluated. -/
  | policy (cause : PolicyError)
  /-- An event names an execution that the store does not know. -/
  | missingExecution (id : ExecutionId)
  /-- Something failed while an output key was evaluated. -/
  | outputKey (key : String) (cause : Failure)
  /-- The metadata store refused. -/
  | store (cause : StoreError)
  /-- The declared node is not the one that was asked for. -/
  | nodeMismatch (declared requested : String)
  /-- The pass of a node ended without a result. -/
  | taskFailed
deriving DecidableEq, Repr

namespace Failure

/-- The class of a failure; an output key takes over that of its cause. -/
def kind : Failure → FailureKind
  | .policy _ => .configuration
  | .missingExecution _ => .consistency
  | .outputKey _ cause => cause.kind
  | .store _ => .store
  | .nodeMismatch .. | .taskFailed => .wiring

/-- A failure in words. -/
def message : Failure → String
  | .policy cause => cause.message
  | .missingExecution id => "event references missing execution " ++ id.display
  | .outputKey key cause => "output key '" ++ key ++ "': " ++ cause.message
  | .store cause => cause.message
  | .nodeMismatch declared requested =>
    "node ids do not match for garbage collection: declared=" ++ declared ++
      " requested=" ++ requested
  | .taskFailed => "collection task failed"

end Failure

end ArtifactGC
