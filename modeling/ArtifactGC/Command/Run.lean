import ArtifactGC.Codec.Outcome
import ArtifactGC.Codec.Snapshot
import ArtifactGC.Command.Arguments
import ArtifactGC.Command.Help
import ArtifactGC.Command.Local
import ArtifactGC.Json.Printer
import ArtifactGC.Json.Reader
import ArtifactGC.Pass

/-!
# Carrying out a command

Both commands read a snapshot and the declaration of a node. `plan` prints the artifacts that a
pass would delete. `collect` runs the pass, prints its outcome, and writes the snapshot back if
it is asked to, also when the pass was given up. A command that cannot read its files, or whose
node is not the declared one, prints nothing. A pass that was given up is printed and still
counts as a failure.
-/

namespace ArtifactGC.Command

/-- Why a command cannot be carried out. -/
inductive CommandError where
  /-- A file cannot be read. -/
  | read (path : String) (cause : PathError)
  /-- A file cannot be written. -/
  | write (path : String) (cause : PathError)
  /-- A file does not hold what it should. -/
  | parse (path : String)
  /-- The snapshot cannot be loaded. -/
  | store (cause : StoreError)
  /-- There is no plan or no pass. -/
  | failure (cause : Failure)
deriving DecidableEq, Repr

/-- Why a command cannot be carried out, in words. -/
def CommandError.message : CommandError → String
  | .read path cause => "failed to read " ++ path ++ ": " ++ cause.detail
  | .write path cause => "failed to write " ++ path ++ ": " ++ cause.detail
  | .parse path => "invalid JSON in " ++ path
  | .store cause => cause.message
  | .failure cause => cause.message

/-- How a command ends: well, or not. -/
inductive ExitStatus where
  /-- Well. -/
  | success
  /-- Not well. -/
  | failure
  /-- The command line was not understood. -/
  | usage
deriving DecidableEq, Repr

/-- The number of an exit status. -/
def ExitStatus.code : ExitStatus → UInt8
  | .success => 0
  | .failure => 1
  | .usage => 2

/-- What a command leaves behind, beside files. -/
structure Result where
  /-- How it ended. -/
  status : ExitStatus
  /-- What it printed. -/
  output : String
  /-- The error that it ended with, if it did. -/
  error : Option CommandError
deriving DecidableEq, Repr

/-- The end of a command that prints a value. -/
def Result.printed (status : ExitStatus) (output : String) : Result := ⟨status, output, none⟩

/-- The end of a command with an error. -/
def Result.stopped (output : String) (error : CommandError) : Result :=
  ⟨.failure, output, some error⟩

/-- A printed value, on lines of its own. -/
def printedText {α : Type} [JsonCodec α] (a : α) : String := (toJson a).pretty ++ "\n"

/-- The value that a text holds. -/
def decodeText {α : Type} [JsonCodec α] (path text : String) : Except CommandError α :=
  ((Json.parse? text).bind ofJson?).elim (.error (.parse path)) .ok

/-- What a command works with once its files are read. -/
structure Loaded where
  /-- The store that the snapshot holds. -/
  store : Store
  /-- The declared node. -/
  node : NodeSpec
deriving DecidableEq, Repr

/-- The node that a command asks for: the named one, or else the declared one. -/
def Target.nodeUid (target : Target) (node : NodeSpec) : NodeUid :=
  ⟨target.pipeline, target.nodeId.getD node.id⟩

/-- The storage of the artifacts that a command is about. -/
def Target.storage (target : Target) : LocalStorage := ⟨target.root⟩

section

variable [ScalarTexts] {m : Type → Type} [Monad m]

/-- Reads a file and decodes it. -/
def readJson {α : Type} [JsonCodec α] (host : Host m) (path : String) :
    m (Except CommandError α) := do
  match ← host.readText path with
  | .error cause => return .error (.read path cause)
  | .ok text => return decodeText path text

/-- Reads the files of a command. -/
def load (host : Host m) (target : Target) : m (Except CommandError Loaded) := do
  match (← readJson host target.snapshot : Except CommandError Snapshot) with
  | .error e => return .error e
  | .ok snapshot =>
    match (← readJson host target.node : Except CommandError NodeSpec) with
    | .error e => return .error e
    | .ok node =>
      match Store.ofSnapshot snapshot with
      | .error cause => return .error (.store cause)
      | .ok store => return .ok ⟨store, node⟩

/-- Prints what a pass would delete. -/
def runPlan (host : Host m) (target : Target) (loaded : Loaded) : m Result := do
  let uid := target.nodeUid loaded.node
  match (← performLocally target.storage host (plan uid loaded.node) loaded.store).1 with
  | .error cause => return .stopped "" (.failure cause)
  | .ok artifacts => return .printed .success (printedText artifacts)

/-- The status of a command that ran a pass. -/
def statusOf (outcome : Outcome) : ExitStatus :=
  if outcome.isAborted then .failure else .success

/-- Runs a pass, prints its outcome, and writes the snapshot back if asked to. -/
def runCollect (host : Host m) (target : Target) (write : Bool) (loaded : Loaded) :
    m Result := do
  let uid := target.nodeUid loaded.node
  match ← performLocally target.storage host (pass uid loaded.node) loaded.store with
  | (.error cause, _) => return .stopped "" (.failure cause)
  | (.ok outcome, store) =>
    let output := printedText outcome
    if write then
      match ← host.writeText target.snapshot (toJson store.snapshot).pretty with
      | .error cause => return .stopped output (.write target.snapshot cause)
      | .ok _ => return .printed (statusOf outcome) output
    else
      return .printed (statusOf outcome) output

/-- Carries out a command line that was understood. -/
def carryOut (host : Host m) (invocation : Invocation) : m Result := do
  match ← load host invocation.target with
  | .error e => return .stopped "" e
  | .ok loaded =>
    match invocation.task with
    | .plan => runPlan host invocation.target loaded
    | .collect write => runCollect host invocation.target write loaded

/-- Carries out a command line. -/
def run (host : Host m) (args : List String) : m Result :=
  match parse args with
  | .ok invocation => carryOut host invocation
  | .error (.help topic) => pure (.printed .success topic.text)
  | .error .mistake => pure ⟨.usage, "", none⟩

end

end ArtifactGC.Command
