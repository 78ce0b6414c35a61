import ArtifactGC.Codec.Standard
import ArtifactGC.Command.Run

/-!
# The program

The command line on the machine that the program runs on.
-/

namespace ArtifactGC

/-- An error of the operating system as an error on a path. -/
def PathError.ofSystem (e : IO.Error) : PathError :=
  let kind : StorageErrorKind :=
    match e with
    | .noFileOrDirectory .. => .notFound
    | .permissionDenied .. => .permissionDenied
    | .inappropriateType .. => .notADirectory
    | .unsatisfiedConstraints .. => .directoryNotEmpty
    | .resourceBusy .. => .resourceBusy
    | .invalidArgument .. => .invalidInput
    | _ => .other
  ⟨kind, toString e⟩

/-- An action on a path with its error as a value. A path that holds the character that ends
paths never reaches the system. -/
def onPath {α : Type} (path : String) (action : IO α) : IO (Except PathError α) := do
  if '\x00' ∈ path.toList then return .error .holdsNul
  match ← action.toBaseIO with
  | .ok a => return .ok a
  | .error e => return .error (.ofSystem e)

/-- What there is at a path. -/
def systemKindAt (path : String) : IO (Except PathError PathKind) :=
  onPath path do
    let resolved ← IO.FS.realPath path
    let metadata ← resolved.metadata
    return match metadata.type with
      | .dir => .directory
      | _ => .file

/-- Removes what is at a path if it is of the kind that is expected there. -/
def removeKind (path : String) (expected : PathKind) (otherwise : PathError) (action : IO Unit) :
    IO (Except PathError Unit) := do
  match ← systemKindAt path with
  | .error e => return .error e
  | .ok kind => if kind = expected then onPath path action else return .error otherwise

/-- Removes everything below a directory. Links are removed and not followed. -/
def emptyDirectory (path : String) : IO Unit := do
  let resolved ← IO.FS.realPath path
  for entry in ← resolved.readDir do
    match (← entry.path.symlinkMetadata).type with
    | .dir => IO.FS.removeDirAll entry.path
    | _ => IO.FS.removeFile entry.path

/-- Removes a directory and everything below it. What is below goes first; a path that led
through something below is gone by the time of the directory itself, which is no error. -/
def removeDirectory (path : String) : IO Unit := do
  emptyDirectory path
  try IO.FS.removeDir path
  catch
    | .noFileOrDirectory .. => return ()
    | e => throw e

/-- The machine that the program runs on. Log entries go to the error stream. -/
def systemHost (verbose : Bool) : Host IO where
  kindAt := systemKindAt
  removeFile path := removeKind path .file .isADirectory (IO.FS.removeFile path)
  removeTree path := removeKind path .directory .notADirectory (removeDirectory path)
  readText path := onPath path (IO.FS.readFile path)
  writeText path content := onPath path (IO.FS.writeFile path content)
  note entry := do
    IO.eprintln entry.message
    if verbose then
      for (name, value) in entry.fields do
        IO.eprintln ("  " ++ name ++ "=" ++ value)

end ArtifactGC

open ArtifactGC in
/-- Carries out the command line. -/
def main (args : List String) : IO UInt32 := do
  let _ : ScalarTexts := .standard
  let verbose := (Command.parse args).toOption.elim false (·.verbose)
  let result ← Command.run (systemHost verbose) args
  IO.print result.output
  match result.error with
  | some e => IO.eprintln e.message
  | none =>
    if result.status = .usage then IO.eprintln ("try '" ++ Command.programName ++ " --help'")
  return result.status.code.toUInt32
