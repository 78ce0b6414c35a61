import ArtifactGC.Local.Host
import ArtifactGC.Request

/-!
# Artifacts on the local machine

The location of an artifact is a path, or a path behind `file://`. A relative path is taken from
a root directory if there is one. A location where nothing is counts as absent and as no
directory; any other error is passed on with the location as it was given.
-/

namespace ArtifactGC

/-- Where relative locations start. -/
structure LocalStorage where
  /-- The root directory, if there is one. -/
  root : Option String
deriving DecidableEq, Repr

namespace LocalStorage

/-- What may stand before a path. -/
def scheme : String := "file://"

/-- A location without the scheme in front of it. -/
def withoutScheme (uri : String) : String :=
  if scheme.toList.isPrefixOf uri.toList then .ofList (uri.toList.drop scheme.length) else uri

/-- Whether a path starts at the top of the file tree. -/
def isAbsolute (path : String) : Bool := path.toList.head? = some '/'

/-- A relative path taken from a directory. -/
def join (directory path : String) : String :=
  if directory = "" ∨ directory.toList.getLast? = some '/' then directory ++ path
  else directory ++ "/" ++ path

/-- The path of a location. -/
def locate (storage : LocalStorage) (uri : String) : String :=
  let path := withoutScheme uri
  match storage.root with
  | some root => if isAbsolute path then path else join root path
  | none => path

/-- The error on a path as an error on the location that led to it. -/
def storageError (uri : String) (e : PathError) : StorageError := ⟨uri, e.kind, e.detail⟩

/-- Whether what is at a path meets a condition; nothing never does. -/
def meets (uri : String) (condition : PathKind → Bool) :
    Except PathError PathKind → Except StorageError Bool
  | .ok kind => .ok (condition kind)
  | .error e => if e.kind = .notFound then .ok false else .error (storageError uri e)

variable {m : Type → Type} [Monad m]

/-- Whether there is anything at a location. -/
def isPresent (storage : LocalStorage) (host : Host m) (uri : String) :
    m (Except StorageError Bool) :=
  meets uri (fun _ => true) <$> host.kindAt (storage.locate uri)

/-- Whether a location is a directory. -/
def isDirectory (storage : LocalStorage) (host : Host m) (uri : String) :
    m (Except StorageError Bool) :=
  meets uri (· = .directory) <$> host.kindAt (storage.locate uri)

/-- Removes a file. -/
def remove (storage : LocalStorage) (host : Host m) (uri : String) :
    m (Except StorageError Unit) :=
  Except.mapError (storageError uri) <$> host.removeFile (storage.locate uri)

/-- Removes a directory and everything below it. -/
def removeRecursive (storage : LocalStorage) (host : Host m) (uri : String) :
    m (Except StorageError Unit) :=
  Except.mapError (storageError uri) <$> host.removeTree (storage.locate uri)

end LocalStorage

end ArtifactGC
