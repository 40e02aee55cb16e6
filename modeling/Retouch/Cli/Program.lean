import Retouch.Cli.Help

/-!
# The program

What the program does with its arguments: the code that it ends with, what it writes to the two
output channels, and the world that it leaves behind.
-/

namespace Retouch.Cli

/-- The rank of a level. -/
def rank : Level → Nat
  | .trace => 0
  | .debug => 1
  | .info => 2
  | .warn => 3
  | .error => 4

/-- What a run of the program comes to. -/
structure Outcome where
  code : Nat
  output : String := ""
  errors : String := ""
  /-- The diagnostics of the run, from the level on that was asked for. -/
  log : List Record := []
  world : World

/-- Lines as a text. -/
def unlines (lines : List String) : String :=
  String.join (lines.map (· ++ "\n"))

/-- The code of a run that was given arguments that do not fit. -/
def misuseCode : Nat := ExitCode.invalidArguments.number

/-- What the program comes to with a command. -/
def runCommand (grammar : Grammar) (command : Command) (level : Level) (world : World) : Outcome :=
  let (result, after) := command.execute grammar world
  let journal := after.journal.since world.journal
  let code :=
    match result with
    | .ok () => 0
    | .error error => error.code.number
  { code
    output := unlines (journal.channelLines .out)
    errors := unlines (journal.channelLines .err)
    log := (journal.records .diagnostics).filter fun record => rank level ≤ rank record.level
    world := after }

/-- What the program comes to with some arguments. -/
def runProgram (grammar : Grammar) (arguments : List String) (world : World) : Outcome :=
  match Invocation.parse arguments with
  | .execute command level => runCommand grammar command level world
  | .help page => { code := 0, output := unlines page.lines, world }
  | .version => { code := 0, output := s!"{programName} {programVersion}\n", world }
  | .misuse =>
    let errors := s!"error: invalid arguments; see '{programName} --help'\n"
    { code := misuseCode, errors, world }

end Retouch.Cli
