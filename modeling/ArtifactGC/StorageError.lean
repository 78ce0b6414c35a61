/-!
# Errors of artifact storage

An operation on a location fails with the class that the operating system gives to such errors
and with its words for it.
-/

namespace ArtifactGC

/-- The class of a storage error. -/
inductive StorageErrorKind where
  /-- There is nothing at the location. -/
  | notFound
  /-- The operation is not allowed. -/
  | permissionDenied
  /-- A part of the path that is not the last is a file. -/
  | notADirectory
  /-- The location is a directory. -/
  | isADirectory
  /-- The directory still has entries. -/
  | directoryNotEmpty
  /-- The location is in use. -/
  | resourceBusy
  /-- The location cannot be expressed or the operation makes no sense for it. -/
  | invalidInput
  /-- A name is too long. -/
  | invalidFilename
  /-- Anything else. -/
  | other
deriving DecidableEq, Repr

/-- An operation on a location that failed. -/
structure StorageError where
  /-- The location as it was given. -/
  uri : String
  /-- The class of the error. -/
  kind : StorageErrorKind
  /-- The error in words. -/
  detail : String
deriving DecidableEq, Repr

/-- A storage error in words. -/
def StorageError.message (e : StorageError) : String :=
  "filesystem operation on '" ++ e.uri ++ "' failed: " ++ e.detail

end ArtifactGC
