import ArtifactGC.StorageError

/-!
# Errors on paths

The errors that an operating system gives for operations on paths, with its words for them.
-/

namespace ArtifactGC

/-- Why an operation on a path fails. -/
structure PathError where
  /-- The class of the error. -/
  kind : StorageErrorKind
  /-- The error in words. -/
  detail : String
deriving DecidableEq, Repr

namespace PathError

/-- There is nothing at the path. -/
def notFound : PathError := ⟨.notFound, "No such file or directory (os error 2)"⟩

/-- A name that is not the last is no directory. -/
def notADirectory : PathError := ⟨.notADirectory, "Not a directory (os error 20)"⟩

/-- The path leads to a directory. -/
def isADirectory : PathError := ⟨.isADirectory, "Is a directory (os error 21)"⟩

/-- A name or the whole path is too long. -/
def tooLong : PathError := ⟨.invalidFilename, "File name too long (os error 36)"⟩

/-- The path holds the character that ends paths. -/
def holdsNul : PathError := ⟨.invalidInput, "file name contained an unexpected NUL byte"⟩

/-- The operation makes no sense for the path. -/
def invalid : PathError := ⟨.invalidInput, "Invalid argument (os error 22)"⟩

/-- The directory still has entries. -/
def notEmpty : PathError := ⟨.directoryNotEmpty, "Directory not empty (os error 39)"⟩

/-- The directory cannot be removed. -/
def busy : PathError := ⟨.resourceBusy, "Device or resource busy (os error 16)"⟩

end PathError

end ArtifactGC
