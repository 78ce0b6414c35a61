import ArtifactGC.Local.PathError
import ArtifactGC.LogEntry

/-!
# The machine that a command runs on

A command reads and writes text files, and its artifacts are files and directories. What it needs
of the machine is a record of operations in any monad, so that a real machine and a file tree
that is only a value serve equally well.
-/

namespace ArtifactGC

/-- What there is at a path. -/
inductive PathKind where
  /-- Anything but a directory. -/
  | file
  /-- A directory. -/
  | directory
deriving DecidableEq, Repr

/-- The operations that a command needs of a machine. -/
structure Host (m : Type → Type) where
  /-- What there is at a path. -/
  kindAt : (path : String) → m (Except PathError PathKind)
  /-- Removes a file. -/
  removeFile : (path : String) → m (Except PathError Unit)
  /-- Removes a directory and everything below it. -/
  removeTree : (path : String) → m (Except PathError Unit)
  /-- The text of a file. -/
  readText : (path : String) → m (Except PathError String)
  /-- Creates or replaces a file. -/
  writeText : (path content : String) → m (Except PathError Unit)
  /-- Takes note of a log entry. -/
  note : LogEntry → m Unit

end ArtifactGC
