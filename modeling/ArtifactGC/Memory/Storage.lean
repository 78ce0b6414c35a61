import ArtifactGC.StorageError

/-!
# Artifact storage in memory

Locations are plain texts, and a directory `d` contains every location that starts with `d/`.
Removals can be made to fail: a protected location stays as it is, and a vanishing one disappears
although its removal is reported as an error. The checks whether a location is there and whether
it is a directory can be made to fail as well. Every removal that succeeds is recorded.
-/

namespace ArtifactGC

/-- Storage with the failures that are set up for it. -/
structure Storage where
  /-- Locations that hold a file. -/
  files : List String
  /-- Locations that hold a directory. -/
  directories : List String
  /-- Locations whose removal fails and changes nothing. -/
  protectedUris : List String
  /-- Locations whose removal fails after they are gone. -/
  vanishingUris : List String
  /-- Locations for which it cannot be said whether they are there. -/
  uncheckableUris : List String
  /-- Locations for which it cannot be said whether they are directories. -/
  unstatableUris : List String
  /-- The locations that were removed successfully, in order. -/
  removed : List String
deriving DecidableEq, Repr

namespace Storage

/-- Storage without locations and failures. -/
def empty : Storage := ⟨[], [], [], [], [], [], []⟩

/-- A set of locations with one more. -/
def addUri (uri : String) (uris : List String) : List String :=
  if uri ∈ uris then uris else uris ++ [uri]

/-- The storage with a file. -/
def addFile (s : Storage) (uri : String) : Storage := { s with files := addUri uri s.files }

/-- The storage with a directory. -/
def addDirectory (s : Storage) (uri : String) : Storage :=
  { s with directories := addUri uri s.directories }

/-- The storage in which the removal of a location fails and leaves it in place. -/
def protect (s : Storage) (uri : String) : Storage :=
  { s with protectedUris := addUri uri s.protectedUris }

/-- The storage in which the removal of a location reports an error and yet removes it. -/
def vanishOnRemove (s : Storage) (uri : String) : Storage :=
  { s with vanishingUris := addUri uri s.vanishingUris }

/-- The storage in which it cannot be said whether a location is there. -/
def failPresence (s : Storage) (uri : String) : Storage :=
  { s with uncheckableUris := addUri uri s.uncheckableUris }

/-- The storage in which it cannot be said whether a location is a directory. -/
def failStat (s : Storage) (uri : String) : Storage :=
  { s with unstatableUris := addUri uri s.unstatableUris }

/-- Whether there is a file or a directory at a location. -/
def contains (s : Storage) (uri : String) : Bool := uri ∈ s.files || uri ∈ s.directories

/-- Whether a location is another one or lies below it. -/
def isWithin (root uri : String) : Bool := uri = root || (root ++ "/").isPrefixOf uri

/-- The storage without a location and everything below it. -/
def dropTree (s : Storage) (uri : String) : Storage :=
  { s with
    files := s.files.filter (fun p => ¬ isWithin uri p)
    directories := s.directories.filter (fun p => ¬ isWithin uri p) }

/-- Whether there is anything at a location, if that can be said. -/
def isPresent (s : Storage) (uri : String) : Except StorageError Bool :=
  if uri ∈ s.uncheckableUris then .error ⟨uri, .other, "exists check failed"⟩
  else .ok (s.contains uri)

/-- Whether a location is a directory, if that can be said. -/
def isDirectory (s : Storage) (uri : String) : Except StorageError Bool :=
  if uri ∈ s.unstatableUris then .error ⟨uri, .other, "stat failed"⟩
  else .ok (decide (uri ∈ s.directories))

/-- The storage after a removal that is recorded as successful. -/
def recordRemoval (s : Storage) (uri : String) : Storage := { s with removed := s.removed ++ [uri] }

/-- What a removal that is set up to fail answers and leaves, if it is. -/
def plannedFailure? (s : Storage) (uri : String) : Option (StorageError × Storage) :=
  if uri ∈ s.protectedUris then some (⟨uri, .permissionDenied, "protected path"⟩, s)
  else if uri ∈ s.vanishingUris then
    some (⟨uri, .other, "removal interrupted"⟩, s.dropTree uri)
  else none

/-- The error of a removal that finds nothing. -/
def nothingThere (uri : String) : StorageError := ⟨uri, .notFound, "no such path"⟩

/-- Removes a file. -/
def remove (s : Storage) (uri : String) : Except StorageError Unit × Storage :=
  match s.plannedFailure? uri with
  | some (e, s) => (.error e, s)
  | none =>
    if uri ∈ s.files then
      (.ok (), { s with files := s.files.filter (· ≠ uri) }.recordRemoval uri)
    else (.error (nothingThere uri), s)

/-- Removes a directory and everything below it. -/
def removeRecursive (s : Storage) (uri : String) : Except StorageError Unit × Storage :=
  match s.plannedFailure? uri with
  | some (e, s) => (.error e, s)
  | none =>
    if uri ∈ s.directories then (.ok (), (s.dropTree uri).recordRemoval uri)
    else (.error (nothingThere uri), s)

end Storage

end ArtifactGC
