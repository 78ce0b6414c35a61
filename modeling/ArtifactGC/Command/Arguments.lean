/-!
# Command line arguments

A command line names a command, `plan` or `collect`, and gives it options. Options have a long
name, some a short one too; a value follows its option or is attached to it, after an equals sign
or, for short names, without one. Arguments are taken from left to right, and the first that
cannot be taken decides: a request for help ends the reading, and so does a mistake.
-/

namespace ArtifactGC.Command

/-- What a command is about. -/
structure Target where
  /-- The file with the snapshot of the metadata store. -/
  snapshot : String
  /-- The file with the declaration of the node. -/
  node : String
  /-- The pipeline of the node. -/
  pipeline : String
  /-- The node to collect for, if it is not the declared one. -/
  nodeId : Option String
  /-- The directory from which relative artifact locations are taken. -/
  root : Option String
deriving DecidableEq, Repr

/-- The commands. -/
inductive Task where
  /-- Print the artifacts that a pass would delete. -/
  | plan
  /-- Run a pass and print its outcome; write the snapshot back if asked to. -/
  | collect (write : Bool)
deriving DecidableEq, Repr

/-- A command line that can be carried out. -/
structure Invocation where
  /-- The command. -/
  task : Task
  /-- What it is about. -/
  target : Target
  /-- Whether more is to be told about it. -/
  verbose : Bool
deriving DecidableEq, Repr

/-- What help is asked about. -/
inductive HelpTopic where
  /-- The program. -/
  | program
  /-- The command `plan`. -/
  | plan
  /-- The command `collect`. -/
  | collect
  /-- The command `help`. -/
  | help
deriving DecidableEq, Repr

/-- Why a command line is not carried out. -/
inductive Refusal where
  /-- It asks for help. -/
  | help (topic : HelpTopic)
  /-- It has a mistake. -/
  | mistake
deriving DecidableEq, Repr

/-- The names of options. -/
inductive OptionName where
  /-- The snapshot file. -/
  | snapshot
  /-- The node file. -/
  | node
  /-- The pipeline. -/
  | pipeline
  /-- The node identifier. -/
  | nodeId
  /-- The root directory. -/
  | root
  /-- Write the snapshot back. -/
  | write
  /-- Tell more. -/
  | verbose
  /-- Ask for help. -/
  | help
deriving DecidableEq, Repr

namespace OptionName

/-- Whether an option has a value. -/
def takesValue : OptionName → Bool
  | .write | .verbose | .help => false
  | _ => true

/-- Whether the value of an option is a path, which must not be empty. -/
def isPath : OptionName → Bool
  | .snapshot | .node | .root => true
  | _ => false

/-- The option with a long name. -/
def ofLong? : String → Option OptionName
  | "snapshot" => some .snapshot
  | "node" => some .node
  | "pipeline" => some .pipeline
  | "node-id" => some .nodeId
  | "root" => some .root
  | "write" => some .write
  | "verbose" => some .verbose
  | "help" => some .help
  | _ => none

/-- The option with a short name. -/
def ofShort? : Char → Option OptionName
  | 's' => some .snapshot
  | 'n' => some .node
  | 'p' => some .pipeline
  | 'v' => some .verbose
  | 'h' => some .help
  | _ => none

end OptionName

/-- Options with their values, in the order in which they were given. -/
abbrev Given := List (OptionName × String)

/-- One more option; it must not be given already, and a path must not be empty. -/
def give (topic : HelpTopic) (option : OptionName) (value : String) (given : Given) :
    Except Refusal Given :=
  if option = .help then .error (.help topic)
  else if option ∈ given.map (·.1) ∨ (option.isPath ∧ value = "") then .error .mistake
  else .ok (given ++ [(option, value)])

/-- Reads short names that stand together. The answer names the option whose value has to follow,
if there is one. -/
def readShort (topic : HelpTopic) (allowed : List OptionName) :
    List Char → Given → Except Refusal (Given × Option OptionName)
  | [], given => .ok (given, none)
  | c :: cs, given =>
    match OptionName.ofShort? c with
    | none => .error .mistake
    | some option =>
      if option ∉ allowed then .error .mistake
      else if ¬ option.takesValue then do readShort topic allowed cs (← give topic option "" given)
      else
        match cs with
        | [] => .ok (given, some option)
        | '=' :: value => do return (← give topic option (.ofList value) given, none)
        | value => do return (← give topic option (.ofList value) given, none)

/-- Reads a long name, with a value if there is an equals sign. The answer names the option whose
value has to follow, if there is one. -/
def readLong (topic : HelpTopic) (allowed : List OptionName) (cs : List Char) (given : Given) :
    Except Refusal (Given × Option OptionName) :=
  match OptionName.ofLong? (.ofList (cs.takeWhile (· ≠ '='))), cs.dropWhile (· ≠ '=') with
  | none, _ => .error .mistake
  | some option, attached =>
    if option ∉ allowed then .error .mistake
    else
      match option.takesValue, attached with
      | true, [] => .ok (given, some option)
      | true, _ :: value => do return (← give topic option (.ofList value) given, none)
      | false, [] => do return (← give topic option "" given, none)
      | false, _ :: _ => .error .mistake

/-- Reads one argument that is expected to be an option. -/
def readOption (topic : HelpTopic) (allowed : List OptionName) (arg : String) (given : Given) :
    Except Refusal (Given × Option OptionName) :=
  match arg.toList with
  | '-' :: '-' :: cs => readLong topic allowed cs given
  | '-' :: c :: cs => readShort topic allowed (c :: cs) given
  | _ => .error .mistake

/-- Whether an argument has the form of an option. -/
def looksLikeOption (arg : String) : Bool :=
  match arg.toList with
  | '-' :: _ :: _ => true
  | _ => false

/-- Reads the options of a command. Nothing may follow two dashes that stand alone. -/
def readOptions (topic : HelpTopic) (allowed : List OptionName) :
    List String → Given → Except Refusal Given
  | [], given => .ok given
  | arg :: args, given =>
    if arg = "--" then if args = [] then .ok given else .error .mistake
    else do
      match ← readOption topic allowed arg given with
      | (given, none) => readOptions topic allowed args given
      | (given, some option) =>
        match args with
        | [] => .error .mistake
        | value :: args =>
          if looksLikeOption value then .error .mistake
          else readOptions topic allowed args (← give topic option value given)

/-- The value of an option that has to be given. -/
def required (given : Given) (option : OptionName) : Except Refusal String :=
  (given.lookup option).elim (.error .mistake) .ok

/-- The options that every command has. -/
def commonOptions : List OptionName :=
  [.snapshot, .node, .pipeline, .nodeId, .root, .verbose, .help]

/-- The command line of a command with its arguments. -/
def invocation (verbose : Bool) (topic : HelpTopic) (allowed : List OptionName)
    (task : Given → Task) (args : List String) : Except Refusal Invocation := do
  let given ← readOptions topic allowed args []
  return {
    task := task given
    target := {
      snapshot := ← required given .snapshot
      node := ← required given .node
      pipeline := ← required given .pipeline
      nodeId := given.lookup .nodeId
      root := given.lookup .root }
    verbose := verbose || (given.lookup .verbose).isSome }

/-- What the command `help` is asked about. -/
def helpTopic : List String → Refusal
  | [] => .help .program
  | ["plan"] => .help .plan
  | ["collect"] => .help .collect
  | ["help"] => .help .help
  | _ => .mistake

/-- Reads the options of the program and then the command. -/
def readProgram : List String → Given → Except Refusal Invocation
  | [], _ => .error .mistake
  | arg :: args, given =>
    if arg = "--" then .error .mistake
    else if looksLikeOption arg then do
      readProgram args (← readOption .program [.verbose, .help] arg given).1
    else
      let verbose := (given.lookup .verbose).isSome
      match arg with
      | "plan" => invocation verbose .plan commonOptions (fun _ => .plan) args
      | "collect" =>
        invocation verbose .collect (.write :: commonOptions)
          (fun given => .collect (given.lookup .write).isSome) args
      | "help" => .error (helpTopic args)
      | _ => .error .mistake

/-- Reads a command line. -/
def parse (args : List String) : Except Refusal Invocation := readProgram args []

end ArtifactGC.Command
