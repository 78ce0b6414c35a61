import ArtifactGC.Command.Arguments

/-!
# Help texts

What the program prints when it is asked how it is used.
-/

namespace ArtifactGC.Command

/-- The name of the program in its help. -/
def programName : String := "gleaner"

/-- How a command is called. -/
def usageLine (command : String) : String :=
  "Usage: " ++ programName ++ " " ++ command ++
    " [OPTIONS] --snapshot <SNAPSHOT> --node <NODE> --pipeline <PIPELINE>"

/-- The lines on the options of a command; `own` is about those that only this one has. -/
def optionLines (own : List String) : List String :=
  ["Options:",
    "  -s, --snapshot <SNAPSHOT>  Metadata snapshot (artifacts, executions, events)",
    "  -v, --verbose              Default log level to debug (RUST_LOG still wins)",
    "  -n, --node <NODE>          Node spec with per-output garbage collection policies",
    "  -p, --pipeline <PIPELINE>  Pipeline the node belongs to",
    "      --node-id <NODE_ID>    Node id to collect for (defaults to the id declared in --node)",
    "      --root <ROOT>          Directory relative artifact uris resolve against"] ++
    own ++ ["  -h, --help                 Print help"]

/-- The lines of the help on a topic. -/
def HelpTopic.lines : HelpTopic → List String
  | .program =>
    ["Garbage-collect pipeline node output artifacts", "",
      "Usage: " ++ programName ++ " [OPTIONS] <COMMAND>", "", "Commands:",
      "  plan     Print the artifacts a pass would delete",
      "  collect  Run one pass and print its outcome",
      "  help     Print this message or the help of the given subcommand(s)", "", "Options:",
      "  -v, --verbose  Default log level to debug (RUST_LOG still wins)",
      "  -h, --help     Print help"]
  | .plan =>
    ["Print the artifacts a pass would delete", "", usageLine "plan", ""] ++ optionLines []
  | .collect =>
    ["Run one pass and print its outcome", "", usageLine "collect", ""] ++
      optionLines ["      --write                Write the updated snapshot back to --snapshot"]
  | .help =>
    ["Print this message or the help of the given subcommand(s)", "",
      "Usage: " ++ programName ++ " help [COMMAND]...", "", "Arguments:",
      "  [COMMAND]...  Print help for the subcommand(s)"]

/-- The help on a topic. -/
def HelpTopic.text (topic : HelpTopic) : String :=
  String.join (topic.lines.map (· ++ "\n"))

end ArtifactGC.Command
