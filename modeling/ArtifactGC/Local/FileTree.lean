import ArtifactGC.Local.Host

/-!
# File trees

A file tree as a value: files with their text and directories, by the names that lead to them
from the top. Paths are followed name by name, as an operating system does it: every name but
the last has to be that of a directory, `.` stays where it is, `..` goes one level up, and a
slash at the end asks for a directory. Relative paths start in a given directory.
-/

namespace ArtifactGC

/-- What a name in a file tree stands for. -/
inductive FileTreeEntry where
  /-- A file with its text. -/
  | file (content : String)
  /-- A directory. -/
  | directory
deriving DecidableEq, Repr

namespace FileTreeEntry

/-- Whether an entry is a file or a directory. -/
def kind : FileTreeEntry → PathKind
  | .file _ => .file
  | .directory => .directory

end FileTreeEntry

/-- Files and directories by the names that lead to them. -/
structure FileTree where
  /-- The entries; the top itself is not listed. -/
  entries : List (List String × FileTreeEntry)
deriving DecidableEq, Repr

/-- The names of a path, where it starts and whether a slash ends it. -/
structure ParsedPath where
  /-- Whether it starts at the top. -/
  absolute : Bool
  /-- The names between its slashes. -/
  names : List String
  /-- Whether a slash follows the last name. -/
  wantsDirectory : Bool
deriving DecidableEq, Repr

namespace ParsedPath

/-- The longest path in bytes. -/
def maxPathLength : Nat := 4095

/-- The longest name in bytes. -/
def maxNameLength : Nat := 255

/-- The parts of a path that an operating system takes. -/
def ofText (path : String) : Except PathError ParsedPath :=
  let cs := path.toList
  if '\x00' ∈ cs then .error .holdsNul
  else if path = "" then .error .notFound
  else if maxPathLength < path.utf8ByteSize then .error .tooLong
  else
    let names := ((cs.splitOn '/').filter (· ≠ [])).map String.ofList
    .ok ⟨cs.head? = some '/', names, cs.getLast? = some '/'⟩

end ParsedPath

namespace FileTree

/-- What the names lead to, if anything. -/
def entry? (t : FileTree) (names : List String) : Option FileTreeEntry :=
  if names = [] then some .directory else t.entries.lookup names

/-- The names reached from a directory by following names; all of them have to lead to
directories, except that the last may lead anywhere. -/
def follow (t : FileTree) (start : List String) : List String → Except PathError (List String)
  | [] => .ok start
  | name :: names =>
    match t.entry? start with
    | none => .error .notFound
    | some (.file _) => .error .notADirectory
    | some .directory =>
      if name = "." then t.follow start names
      else if name = ".." then t.follow start.dropLast names
      else if ParsedPath.maxNameLength < name.utf8ByteSize then .error .tooLong
      else t.follow (start ++ [name]) names

/-- The names and the entry that a path leads to. -/
def locate (t : FileTree) (cwd : List String) (path : String) :
    Except PathError (List String × FileTreeEntry) := do
  let parsed ← ParsedPath.ofText path
  let names ← t.follow (if parsed.absolute then [] else cwd) parsed.names
  match t.entry? names with
  | none => .error .notFound
  | some (.file content) =>
    if parsed.wantsDirectory then .error .notADirectory else .ok (names, .file content)
  | some .directory => .ok (names, .directory)

/-- What there is at a path. -/
def kindAt (t : FileTree) (cwd : List String) (path : String) : Except PathError PathKind :=
  (t.locate cwd path).map (·.2.kind)

/-- The text of a file. -/
def readText (t : FileTree) (cwd : List String) (path : String) : Except PathError String := do
  match (← t.locate cwd path).2 with
  | .file content => .ok content
  | .directory => .error .isADirectory

/-- The tree without the entry that names lead to and all below it. -/
def without (t : FileTree) (names : List String) : FileTree :=
  ⟨t.entries.filter fun e => ¬ names.isPrefixOf e.1⟩

/-- The tree without the entries below a directory. -/
def emptied (t : FileTree) (names : List String) : FileTree :=
  ⟨t.entries.filter fun e => ¬ (names.isPrefixOf e.1 ∧ e.1 ≠ names)⟩

/-- The tree with an entry set. -/
def set (t : FileTree) (names : List String) (entry : FileTreeEntry) : FileTree :=
  ⟨t.entries.filter (fun e => e.1 ≠ names) ++ [(names, entry)]⟩

/-- Removes a file. -/
def removeFile (t : FileTree) (cwd : List String) (path : String) :
    Except PathError Unit × FileTree :=
  match t.locate cwd path with
  | .error e => (.error e, t)
  | .ok (_, .directory) => (.error .isADirectory, t)
  | .ok (names, .file _) => (.ok (), t.without names)

/-- The tree without an empty directory, which is looked up by its path once more. The last name
of the path has to be the directory's own name. -/
def withoutDirectory (t : FileTree) (cwd : List String) (path : String) :
    Except PathError FileTree := do
  let parsed ← ParsedPath.ofText path
  match parsed.names.getLast? with
  | none => .error .busy
  | some name =>
    let parent ← t.follow (if parsed.absolute then [] else cwd) parsed.names.dropLast
    match t.entry? parent with
    | none => .error .notFound
    | some (.file _) => .error .notADirectory
    | some .directory =>
      if name = "." then .error .invalid
      else if name = ".." then .error .notEmpty
      else .ok (t.without (parent ++ [name]))

/-- Removes a directory and everything below it. What is below goes first and the directory
itself last, by its path: one that cannot be removed is left empty, and a path that led through
something below is gone by then, which is no error but leaves the directory there as well. -/
def removeTree (t : FileTree) (cwd : List String) (path : String) :
    Except PathError Unit × FileTree :=
  match t.locate cwd path with
  | .error e => (.error e, t)
  | .ok (_, .file _) => (.error .notADirectory, t)
  | .ok (names, .directory) =>
    match (t.emptied names).withoutDirectory cwd path with
    | .ok rest => (.ok (), rest)
    | .error e => (if e.kind = .notFound then .ok () else .error e, t.emptied names)

/-- Creates or replaces a file. -/
def writeText (t : FileTree) (cwd : List String) (path content : String) :
    Except PathError Unit × FileTree :=
  match ParsedPath.ofText path with
  | .error e => (.error e, t)
  | .ok parsed =>
    match t.follow (if parsed.absolute then [] else cwd) parsed.names with
    | .error e => (.error e, t)
    | .ok names =>
      match t.entry? names, t.entry? names.dropLast with
      | some .directory, _ => (.error .isADirectory, t)
      | some (.file _), _ =>
        if parsed.wantsDirectory then (.error .notADirectory, t)
        else (.ok (), t.set names (.file content))
      | none, some .directory =>
        if parsed.wantsDirectory then (.error .isADirectory, t)
        else (.ok (), t.set names (.file content))
      | none, some (.file _) => (.error .notADirectory, t)
      | none, none => (.error .notFound, t)

/-- A file tree as a machine with a working directory; log entries go nowhere. -/
def host (cwd : List String) : Host (StateM FileTree) where
  kindAt path t := (t.kindAt cwd path, t)
  removeFile path t := t.removeFile cwd path
  removeTree path t := t.removeTree cwd path
  readText path t := (t.readText cwd path, t)
  writeText path content t := t.writeText cwd path content
  note _ t := ((), t)

end FileTree

end ArtifactGC
