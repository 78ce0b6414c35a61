import ArtifactGC.Assembly
import ArtifactGC.Local.Storage
import ArtifactGC.Memory.Store

/-!
# Passes over a snapshot and local files

A command keeps the metadata store in memory and finds the artifacts on the machine it runs on.
`Procedure.interpret` lets any answers in any monad carry out a procedure; `answerLocally` are
those of a store in memory together with local storage, without a pipeline group filter.
-/

namespace ArtifactGC

/-- Carries out a procedure with given answers. -/
def Procedure.interpret {m : Type → Type} [Monad m] {α : Type}
    (answer : (request : Request) → m request.Answer) (note : LogEntry → m Unit) :
    Procedure α → m (Except Failure α)
  | .returned a => pure (.ok a)
  | .failed e => pure (.error e)
  | .ask request next => do (next (← answer request)).interpret answer note
  | .note entry rest => do
    note entry
    rest.interpret answer note

namespace Command

variable {m : Type → Type} [Monad m]

/-- The answers of a store in memory and of local storage. -/
def answerLocally (storage : LocalStorage) (host : Host m) :
    (request : Request) → StateT Store m request.Answer
  | .liveOutputs node, store => pure (.ok (store.liveOutputs node), store)
  | .events artifacts, store => pure (.ok (store.eventsOn artifacts), store)
  | .executions ids, store => pure (.ok (store.executionsOf ids), store)
  | .put artifacts, store => pure (.ok (), store.put artifacts)
  | .unusedInGroups usage candidates, store =>
    pure (GroupFilter.passThrough usage candidates, store)
  | .isDirectory uri, store => (·, store) <$> storage.isDirectory host uri
  | .isPresent uri, store => (·, store) <$> storage.isPresent host uri
  | .remove uri, store => (·, store) <$> storage.remove host uri
  | .removeRecursive uri, store => (·, store) <$> storage.removeRecursive host uri

/-- Carries out a procedure with a store in memory and local storage. -/
def performLocally {α : Type} (storage : LocalStorage) (host : Host m) (p : Procedure α)
    (store : Store) : m (Except Failure α × Store) :=
  (p.interpret (answerLocally storage host) (fun entry => liftM (host.note entry))).run store

end Command

end ArtifactGC
