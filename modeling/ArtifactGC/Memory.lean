import ArtifactGC.Assembly
import ArtifactGC.Memory.Storage
import ArtifactGC.Memory.Store

/-!
# Services in memory

A store and a storage in memory answer the requests of a pass under given conditions: the store
may refuse or break down at any of its operations, it may answer the question for live artifacts
with something else than it holds, and any function may serve as the pipeline group filter.
-/

namespace ArtifactGC

/-- The operations of a metadata store. -/
inductive StoreOperation where
  /-- Asking for live output artifacts. -/
  | liveOutputs
  /-- Asking for events. -/
  | events
  /-- Asking for executions. -/
  | executions
  /-- Writing artifact records. -/
  | put
deriving DecidableEq, Repr

/-- How an operation of a store goes wrong. -/
inductive StoreFault where
  /-- It refuses with a reason. -/
  | refuses (reason : String)
  /-- It breaks down and never answers. -/
  | breaksDown
deriving DecidableEq, Repr

/-- The conditions under which services in memory work. -/
structure Conditions where
  /-- What goes wrong at the operations of the store. -/
  fault : StoreOperation → Option StoreFault
  /-- What is answered instead of the live artifacts, if anything is. -/
  liveOverride : Option LiveOutputs
  /-- The pipeline group filter. -/
  groups : GroupFilter

/-- Nothing goes wrong, and the filter holds nothing back. -/
def Conditions.normal : Conditions := ⟨fun _ => none, none, .passThrough⟩

/-- A metadata store and artifact storage in memory. -/
structure Memory where
  /-- The metadata store. -/
  store : Store
  /-- The artifact storage. -/
  storage : Storage
deriving DecidableEq, Repr

namespace Memory

/-- No records and no locations. -/
def empty : Memory := ⟨.empty, .empty⟩

/-- The answer of a store operation that may go wrong. -/
def underFault {α : Type} (fault : Option StoreFault) (answer : α) (before after : Memory) :
    Option (Except StoreError α) × Memory :=
  match fault with
  | none => (some (.ok answer), after)
  | some (.refuses reason) => (some (.error (.unavailable reason)), before)
  | some .breaksDown => (none, before)

/-- The store as a service under given conditions. -/
def storeService (c : Conditions) : StoreService Memory where
  liveOutputs node m :=
    underFault (c.fault .liveOutputs) (c.liveOverride.getD (m.store.liveOutputs node)) m m
  events artifacts m := underFault (c.fault .events) (m.store.eventsOn artifacts) m m
  executions ids m := underFault (c.fault .executions) (m.store.executionsOf ids) m m
  put artifacts m := underFault (c.fault .put) () m { m with store := m.store.put artifacts }

/-- The storage as a service. -/
def storageService : StorageService Memory where
  isDirectory uri m := (m.storage.isDirectory uri, m)
  isPresent uri m := (m.storage.isPresent uri, m)
  remove uri m := (m.storage.remove uri).map id fun storage => { m with storage }
  removeRecursive uri m := (m.storage.removeRecursive uri).map id fun storage => { m with storage }

/-- The services under given conditions. -/
def services (c : Conditions) : Services Memory :=
  .ofParts (storeService c) storageService c.groups

end Memory

end ArtifactGC
