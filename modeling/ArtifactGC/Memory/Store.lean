import ArtifactGC.Distinct
import ArtifactGC.Request
import ArtifactGC.Snapshot
import ArtifactGC.Table

/-!
# A metadata store in memory

The store holds artifact and execution records, each at most once per identifier and in the
order of their first insertion, events in the order of their insertion, and the number of
batches that were written. It can be saved as a snapshot and loaded from one.
-/

namespace ArtifactGC

/-- A metadata store. -/
structure Store where
  /-- Artifact records. -/
  artifacts : Table Artifact.id
  /-- Execution records. -/
  executions : Table Execution.id
  /-- Events, oldest first. -/
  events : List Event
  /-- How many batches of artifact records were written. -/
  batches : Nat
deriving DecidableEq, Repr

namespace Store

/-- The store without records. -/
def empty : Store := ⟨.empty, .empty, [], 0⟩

/-- The store with an artifact record written. -/
def insertArtifact (s : Store) (a : Artifact) : Store :=
  { s with artifacts := s.artifacts.upsert a }

/-- The store with an execution record written. -/
def insertExecution (s : Store) (e : Execution) : Store :=
  { s with executions := s.executions.upsert e }

/-- The store with an event added. -/
def insertEvent (s : Store) (e : Event) : Store :=
  { s with events := s.events ++ [e] }

/-- The record of an artifact, if there is one. -/
def artifact? (s : Store) (id : ArtifactId) : Option Artifact := s.artifacts.find? id

/-- The store with a batch of artifact records written. -/
def put (s : Store) (artifacts : List Artifact) : Store :=
  { s with artifacts := s.artifacts.upsertAll artifacts, batches := s.batches + 1 }

/-- The artifacts that are live, in the order of their first insertion. -/
def liveArtifacts (s : Store) : List Artifact := s.artifacts.records.filter (·.isLive)

/-- The output keys and artifacts that the events of a node publish, in the order of the events:
the artifact has a record and is live, and the execution has a record of that node. -/
def publications (s : Store) (node : NodeUid) : List (String × Artifact) :=
  s.events.filterMap fun e => do
    let key ← e.outputKey
    let execution ← s.executions.find? e.executionId
    let artifact ← s.artifacts.find? e.artifactId
    if e.kind.isOutput ∧ execution.node = node ∧ artifact.isLive then some (key, artifact) else none

/-- The live output artifacts of a node by output key, each once, in the order of the first event
that publishes it under the key. Keys without an artifact are absent. -/
def liveOutputs (s : Store) (node : NodeUid) : LiveOutputs :=
  (s.publications node).foldl (fun live (key, artifact) =>
    let listed := (live.find? key).getD []
    if artifact.id ∈ listed.map (·.id) then live else live.insert key (listed ++ [artifact])) .empty

/-- The events on any of some artifacts, oldest first. -/
def eventsOn (s : Store) (ids : List ArtifactId) : List Event :=
  s.events.filter (·.artifactId ∈ ids)

/-- The records of some executions, each once, in the order in which they are asked for. -/
def executionsOf (s : Store) (ids : List ExecutionId) : List Execution :=
  (distinctOn id ids).filterMap s.executions.find?

/-- The content of the store. -/
def snapshot (s : Store) : Snapshot := ⟨s.artifacts.records, s.executions.records, s.events⟩

/-- The identifier of the first artifact that has the identifier of an earlier one. -/
def firstRepeated? : List Artifact → List ArtifactId → Option ArtifactId
  | [], _ => none
  | a :: as, earlier => if a.id ∈ earlier then some a.id else firstRepeated? as (a.id :: earlier)

/-- The store with a given content. Artifact identifiers must not repeat; of several executions
with one identifier the last counts, at the place of the first. -/
def ofSnapshot (s : Snapshot) : Except StoreError Store :=
  match firstRepeated? s.artifacts [] with
  | some id => .error (.duplicateArtifact id)
  | none => .ok ⟨.ofList s.artifacts, .ofList s.executions, s.events, 0⟩

end Store

end ArtifactGC
