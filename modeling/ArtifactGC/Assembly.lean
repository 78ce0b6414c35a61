import ArtifactGC.Procedure

/-!
# Putting services together

The services of a pass are a metadata store, artifact storage and a pipeline group filter. Store
and storage have to be given; without a filter nothing is held back. The store is looked for
first.
-/

namespace ArtifactGC

/-- A metadata store as a service. -/
structure StoreService (σ : Type) where
  /-- Answers which artifacts of a node are live. -/
  liveOutputs : NodeUid → σ → Option (Except StoreError LiveOutputs) × σ
  /-- Answers which events are on some artifacts. -/
  events : List ArtifactId → σ → Option (Except StoreError (List Event)) × σ
  /-- Answers with the records of some executions. -/
  executions : List ExecutionId → σ → Option (Except StoreError (List Execution)) × σ
  /-- Writes artifact records. -/
  put : List Artifact → σ → Option (Except StoreError Unit) × σ

/-- Artifact storage as a service. -/
structure StorageService (σ : Type) where
  /-- Answers whether a location is a directory. -/
  isDirectory : String → σ → Except StorageError Bool × σ
  /-- Answers whether there is anything at a location. -/
  isPresent : String → σ → Except StorageError Bool × σ
  /-- Removes a file. -/
  remove : String → σ → Except StorageError Unit × σ
  /-- Removes a directory and everything below it. -/
  removeRecursive : String → σ → Except StorageError Unit × σ

/-- A pipeline group filter: the configuration of a policy and the candidates go in, and the
candidates that no configured pipeline uses come out. -/
abbrev GroupFilter := Option PipelineGroupUsage → List Artifact → Except Failure (List Artifact)

/-- The filter that holds nothing back. -/
def GroupFilter.passThrough : GroupFilter := fun _ candidates => .ok candidates

/-- The services that a store, a storage and a filter make up. -/
def Services.ofParts {σ : Type} (store : StoreService σ) (storage : StorageService σ)
    (groups : GroupFilter) : Services σ where
  answer
    | .liveOutputs node, s => store.liveOutputs node s
    | .events artifacts, s => store.events artifacts s
    | .executions ids, s => store.executions ids s
    | .put artifacts, s => store.put artifacts s
    | .unusedInGroups usage candidates, s => (some (groups usage candidates), s)
    | .isDirectory uri, s => (storage.isDirectory uri s).map some id
    | .isPresent uri, s => (storage.isPresent uri s).map some id
    | .remove uri, s => (storage.remove uri s).map some id
    | .removeRecursive uri, s => (storage.removeRecursive uri s).map some id

/-- The parts that are given for a collector. -/
structure Assembly (σ : Type) where
  /-- The metadata store. -/
  store : Option (StoreService σ) := none
  /-- The artifact storage. -/
  storage : Option (StorageService σ) := none
  /-- The pipeline group filter. -/
  groups : Option GroupFilter := none

/-- A part that has to be given and is not. -/
inductive MissingPart where
  /-- The metadata store. -/
  | store
  /-- The artifact storage. -/
  | storage
deriving DecidableEq, Repr

namespace MissingPart

/-- What a part is called in messages. -/
def name : MissingPart → String
  | .store => "metadata store"
  | .storage => "filesystem"

/-- What is missing, in words. -/
def message (part : MissingPart) : String :=
  "Missing port: " ++ part.name ++ ". It must be set before build()."

end MissingPart

/-- The services that the given parts make up, if none is missing. -/
def Assembly.build {σ : Type} (parts : Assembly σ) : Except MissingPart (Services σ) := do
  let store ← parts.store.elim (.error .store) .ok
  let storage ← parts.storage.elim (.error .storage) .ok
  return .ofParts store storage (parts.groups.getD .passThrough)

end ArtifactGC
