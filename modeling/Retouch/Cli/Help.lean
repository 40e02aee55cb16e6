import Retouch.Cli.Arguments

/-!
# Help pages

The texts that explain the arguments. There is a page for the program and one for each command. Only
the page for showing trees has a long form of its own, since one of its options explains its values.
-/

namespace Retouch.Cli

/-- The name of the program. -/
def programName : String := "codeshift"

/-- The version of the program. -/
def programVersion : String := "0.1.0"

/-- The line that explains the option for the level of the log. -/
def logLevelHelp : String :=
  "      --log-level <LOG_LEVEL>  Log level for tracing output [default: warn]" ++
    " [possible values: trace, debug, info, warn, error]"

/-- The line that explains the option for help. -/
def helpOptionHelp : String :=
  "  -h, --help                   Print help"

/-- The page of the program. -/
def programHelp : List String :=
  ["Apply codemods to PHP sources", "", s!"Usage: {programName} [OPTIONS] <COMMAND>", "",
    "Commands:",
    "  run   Run codemods over a file or directory",
    "  ast   Print the parsed tree of a file",
    "  list  List the built-in codemods",
    "  help  Print this message or the help of the given subcommand(s)", "", "Options:",
    logLevelHelp, helpOptionHelp, "  -V, --version                Print version"]

/-- The page of a run. -/
def runHelp : List String :=
  ["Run codemods over a file or directory", "",
    s!"Usage: {programName} run [OPTIONS] --codemod <CODEMODS> <TARGET>", "", "Arguments:",
    "  <TARGET>  File or directory to transform", "", "Options:",
    "  -c, --codemod <CODEMODS>     Codemod manifest; repeat to chain several, in order",
    logLevelHelp,
    "  -o, --output <OUTPUT>        Write results here instead of rewriting the target in place",
    "      --ignore <IGNORE>        Comma-separated paths to skip; `./` entries resolve" ++
      " against the target",
    "      --stack                  Print the full cause chain on failure",
    helpOptionHelp]

/-- The start of the page for showing a tree. -/
def treeHelpStart : List String :=
  ["Print the parsed tree of a file", "", s!"Usage: {programName} ast [OPTIONS] <FILE>", "",
    "Arguments:"]

/-- The page for showing a tree in its short form. -/
def treeHelp : List String :=
  treeHelpStart ++
    ["  <FILE>  PHP file to parse", "", "Options:", logLevelHelp,
      "  -o, --output <OUTPUT>        Write the dump here instead of stdout",
      "      --format <FORMAT>        Dump format [default: text] [possible values: text, json]",
      "  -h, --help                   Print help (see more with '--help')"]

/-- The page for showing a tree in its long form. -/
def treeLongHelp : List String :=
  treeHelpStart ++
    ["  <FILE>", "          PHP file to parse", "", "Options:",
      "      --log-level <LOG_LEVEL>", "          Log level for tracing output", "          ",
      "          [default: warn]",
      "          [possible values: trace, debug, info, warn, error]", "",
      "  -o, --output <OUTPUT>", "          Write the dump here instead of stdout", "",
      "      --format <FORMAT>", "          Dump format", "",
      "          Possible values:", "          - text: Indented tree, one node per line (default)",
      "          - json: Pretty-printed JSON", "          ", "          [default: text]", "",
      "  -h, --help", "          Print help (see a summary with '-h')"]

/-- The page for listing codemods. -/
def listHelp : List String :=
  ["List the built-in codemods", "", s!"Usage: {programName} list [OPTIONS]", "", "Options:",
    logLevelHelp, helpOptionHelp]

/-- The page for the help pages. -/
def helpHelp : List String :=
  ["Print this message or the help of the given subcommand(s)", "",
    s!"Usage: {programName} help [COMMAND]...", "", "Arguments:",
    "  [COMMAND]...  Print help for the subcommand(s)"]

/-- The lines of a page. -/
def HelpPage.lines : HelpPage → List String
  | ⟨none, _⟩ => programHelp
  | ⟨some .run, _⟩ => runHelp
  | ⟨some .tree, long⟩ => if long then treeLongHelp else treeHelp
  | ⟨some .list, _⟩ => listHelp
  | ⟨some .help, _⟩ => helpHelp

end Retouch.Cli
