import ArtifactGC.Outcome
import ArtifactGC.Procedure

/-!
# Purging

Purging makes the deletion of artifacts final: their content is removed from storage, and then
their records are written as deleted, all in one batch. An artifact that is owned outside the
pipeline only changes its record. When a removal fails and the location turns out to be empty
all the same, the artifact counts as deleted; otherwise it is left live for a later pass.
Artifacts that are not live are passed over.
-/

namespace ArtifactGC

/-- What becomes of a live artifact. -/
inductive Fate where
  /-- Removed from storage, or gone already. -/
  | deleted
  /-- Owned outside the pipeline and left in storage. -/
  | markedExternal
  /-- Still in storage. -/
  | failed
deriving DecidableEq, Repr

/-- Removes what is at a location, a directory with everything below it. -/
def removeFromStorage (uri : String) : Procedure (Except StorageError Unit) :=
  .ask (.isDirectory uri) fun
    | .ok true => .ask (.removeRecursive uri) .returned
    | .ok false => .ask (.remove uri) .returned
    | .error e => .returned (.error e)

/-- Settles the fate of a live artifact. Unless a check after a failed removal says that nothing
is left at the location, the artifact counts as still there. -/
def settle (a : Artifact) : Procedure Fate := do
  if a.isExternal then
    return .markedExternal
  match ← removeFromStorage a.uri with
  | .ok _ => return .deleted
  | .error e =>
    .ask (.isPresent a.uri) fun
      | .ok false => .returned .deleted
      | _ => .note (.removalFailed a.id e) (.returned .failed)

/-- Settles the fate of some live artifacts one after another. -/
def settleAll : List Artifact → Procedure (List (Artifact × Fate))
  | [] => return []
  | a :: as => do
    let fate ← settle a
    return (a, fate) :: (← settleAll as)

/-- The artifacts that met a fate, in their order. -/
def withFate (fate : Fate) (settled : List (Artifact × Fate)) : List ArtifactId :=
  (settled.filter (·.2 = fate)).map (·.1.id)

/-- The report on some artifacts whose fate is settled. -/
def reportOf (settled : List (Artifact × Fate)) : PurgeReport :=
  ⟨withFate .deleted settled, withFate .markedExternal settled, withFate .failed settled⟩

/-- The records that change: all artifacts whose fate is not failure, marked deleted. -/
def changedRecords (settled : List (Artifact × Fate)) : List Artifact :=
  (settled.filter (·.2 ≠ .failed)).map (·.1.markDeleted)

/-- Purges artifacts. -/
def purge (artifacts : List Artifact) : Procedure PurgeReport := do
  let settled ← settleAll (artifacts.filter (·.isLive))
  let changed := changedRecords settled
  if changed = [] then
    return reportOf settled
  Procedure.put changed
  return reportOf settled

end ArtifactGC
