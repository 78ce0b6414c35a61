import ArtifactGC.Codec.Artifact
import ArtifactGC.Codec.Policy
import ArtifactGC.Snapshot

/-!
# Snapshots in JSON

Executions, events and the lists that a snapshot consists of. An event without an output key is
written without that member.
-/

namespace ArtifactGC

variable [ScalarTexts]

namespace ExecutionState

/-- The name of a state in JSON. -/
def jsonName : ExecutionState → String
  | .new => "NEW"
  | .running => "RUNNING"
  | .complete => "COMPLETE"
  | .failed => "FAILED"
  | .cached => "CACHED"
  | .canceled => "CANCELED"

/-- The state of a name in JSON. -/
def ofJsonName? : String → Option ExecutionState
  | "NEW" => some .new
  | "RUNNING" => some .running
  | "COMPLETE" => some .complete
  | "FAILED" => some .failed
  | "CACHED" => some .cached
  | "CANCELED" => some .canceled
  | _ => none

end ExecutionState

instance : JsonCodec ExecutionState where
  toJson state := .text state.jsonName
  ofJson? j := j.choice?.bind ExecutionState.ofJsonName?

instance : JsonCodec Execution where
  toJson e := .record [("id", toJson e.id), ("node", toJson e.node), ("state", toJson e.state)]
  ofJson? j := do
    let field ← j.fields? ["id", "node", "state"]
    some {
      id := ← Json.required (field "id")
      node := ← Json.required (field "node")
      state := ← Json.required (field "state") }

namespace EventKind

/-- The name of a kind in JSON. -/
def jsonName : EventKind → String
  | .input => "INPUT"
  | .output => "OUTPUT"
  | .declaredInput => "DECLARED_INPUT"
  | .declaredOutput => "DECLARED_OUTPUT"
  | .internalInput => "INTERNAL_INPUT"
  | .internalOutput => "INTERNAL_OUTPUT"
  | .pendingOutput => "PENDING_OUTPUT"

/-- The kind of a name in JSON. -/
def ofJsonName? : String → Option EventKind
  | "INPUT" => some .input
  | "OUTPUT" => some .output
  | "DECLARED_INPUT" => some .declaredInput
  | "DECLARED_OUTPUT" => some .declaredOutput
  | "INTERNAL_INPUT" => some .internalInput
  | "INTERNAL_OUTPUT" => some .internalOutput
  | "PENDING_OUTPUT" => some .pendingOutput
  | _ => none

end EventKind

instance : JsonCodec EventKind where
  toJson kind := .text kind.jsonName
  ofJson? j := j.choice?.bind EventKind.ofJsonName?

instance : JsonCodec Event where
  toJson e := .record <|
    [("artifact_id", toJson e.artifactId), ("execution_id", toJson e.executionId),
      ("kind", toJson e.kind)] ++ Json.optionalMember "output_key" e.outputKey
  ofJson? j := do
    let field ← j.fields? ["artifact_id", "execution_id", "kind", "output_key"]
    some {
      artifactId := ← Json.required (field "artifact_id")
      executionId := ← Json.required (field "execution_id")
      kind := ← Json.required (field "kind")
      outputKey := ← Json.withDefault none (field "output_key") }

instance : JsonCodec Snapshot where
  toJson s := .record [("artifacts", toJson s.artifacts), ("executions", toJson s.executions),
    ("events", toJson s.events)]
  ofJson? j := do
    let field ← j.fields? ["artifacts", "executions", "events"]
    some {
      artifacts := ← Json.withDefault [] (field "artifacts")
      executions := ← Json.withDefault [] (field "executions")
      events := ← Json.withDefault [] (field "events") }

end ArtifactGC
