import Retouch.Cli.Command

/-!
# Arguments

The arguments of the program name a command, its options, and its operands. The rules:

* An option has a long name and may have a short one of one character. Its value is attached to it
  (`--output=x`, `-o=x`, `-ox`) or is the argument after it, unless that one looks like an option.
* After the argument `--` all arguments are operands. An argument that does not look like an option
  is an operand; the argument `-` does not look like one.
* Arguments count from left to right, so a fault is found before a request for help that comes after
  it. Missing arguments are noticed at the end.
* A value that is an argument of its own is checked when the next option or operand comes up, or at
  the end. The name of a command is neither, so a value right before it is checked only when the
  command has been read, and a request for help that comes with the command goes first.

`scan` finds out what the arguments are and stops at the first that settles the matter;
`Invocation.parse` gives them their meaning.
-/

namespace Retouch.Cli

/-- What an option is for. -/
inductive OptionRole where
  /-- Its presence says it all. -/
  | flag
  /-- It has a value. -/
  | value
  /-- It asks for help. -/
  | help
  /-- It asks for the version. -/
  | version
deriving DecidableEq, Repr, Inhabited

/-- The form of an option. -/
structure OptionForm where
  long : String
  short : Option Char := none
  role : OptionRole := .value
deriving DecidableEq, Repr, Inhabited

/-- Something that arguments say. -/
inductive Item where
  | flag (option : String)
  /-- The value of an option, which may be an argument of its own. -/
  | value (option : String) (text : String) (apart : Bool)
  | operand (text : String)
deriving DecidableEq, Repr, Inhabited

/-- Whether an item is a value that is an argument of its own. -/
def Item.isApart : Item → Bool
  | value _ _ apart => apart
  | _ => false

/-- How the reading of arguments ends. -/
inductive Ending where
  /-- With the last argument. -/
  | complete
  /-- With a request for help, of which there is a short and a long form. -/
  | help (long : Bool)
  /-- With a request for the version. -/
  | version
  /-- With the name of a command, and the arguments after it. -/
  | command (name : String) (rest : List String)
  /-- With an argument that fits nothing. -/
  | faulty
deriving DecidableEq, Repr, Inhabited

/-- One argument by its form. -/
inductive ArgumentForm where
  /-- The argument `--`. -/
  | separator
  /-- A long name, with the value attached to it. -/
  | long (name : String) (attached : Option String)
  /-- A short name, with the characters after it. -/
  | short (name : Char) (after : List Char)
  /-- Anything else. -/
  | plain (text : String)
deriving DecidableEq, Repr, Inhabited

/-- The form of an argument. -/
def ArgumentForm.of (argument : String) : ArgumentForm :=
  match argument.toList with
  | ['-', '-'] => .separator
  | '-' :: '-' :: name =>
    let long := String.ofList (name.takeWhile (· ≠ '='))
    match name.dropWhile (· ≠ '=') with
    | [] => .long long none
    | _ :: attached => .long long (some (String.ofList attached))
  | '-' :: name :: after => .short name after
  | _ => .plain argument

/-- The value attached to a short name. -/
def attachedValue? : List Char → Option String
  | [] => none
  | '=' :: value => some (String.ofList value)
  | value => some (String.ofList value)

/-- What an option says that was found in the arguments, given the value attached to it and the
arguments after it: an item and the arguments that remain, or the end. -/
def OptionForm.take (form : OptionForm) (byLongName : Bool) (attached : Option String)
    (rest : List String) : Except Ending (Item × List String) :=
  match form.role, attached, rest with
  | .help, none, _ => .error (.help byLongName)
  | .version, none, _ => .error .version
  | .flag, none, _ => .ok (.flag form.long, rest)
  | .value, some text, _ => .ok (.value form.long text false, rest)
  | .value, none, next :: rest =>
    match ArgumentForm.of next with
    | .plain text => .ok (.value form.long text true, rest)
    | _ => .error .faulty
  | _, _, _ => .error .faulty

/-- Reads the arguments that start with the given one: an item and the arguments that remain, or the
end. -/
def readItem (forms : List OptionForm) (commands : List String) (argument : String)
    (rest : List String) : Except Ending (Item × List String) :=
  match ArgumentForm.of argument with
  | .separator => .error .complete
  | .long name attached =>
    match forms.find? fun form => form.long = name with
    | some form => form.take true attached rest
    | none => .error .faulty
  | .short name after =>
    match forms.find? fun form => form.short = some name with
    | some form =>
      match form.role with
      | .value => form.take false (attachedValue? after) rest
      | _ => form.take false none rest
    | none => .error .faulty
  | .plain text =>
    if commands.contains text then .error (.command text rest) else .ok (.operand text, rest)

/-- What the arguments say, and how their reading ends. One argument at least is taken in each
round. -/
def scanRounds (forms : List OptionForm) (commands : List String) :
    (rounds : Nat) → List String → List Item × Ending
  | 0, _ => ([], .complete)
  | _, [] => ([], .complete)
  | rounds + 1, argument :: rest =>
    if ArgumentForm.of argument = .separator then (rest.map .operand, .complete)
    else
      match readItem forms commands argument rest with
      | .error ending => ([], ending)
      | .ok (item, rest) =>
        let (items, ending) := scanRounds forms commands rounds rest
        (item :: items, ending)

/-- What the arguments say, and how their reading ends. -/
def scan (forms : List OptionForm) (commands : List String) (arguments : List String) :
    List Item × Ending :=
  scanRounds forms commands arguments.length arguments

/-! ## What the program takes -/

/-- The option for help. -/
def helpOption : OptionForm := { long := "help", short := some 'h', role := .help }

/-- The option for the level of the log, which every command takes. -/
def logLevelOption : OptionForm := { long := "log-level" }

/-- The option for the output. -/
def outputOption : OptionForm := { long := "output", short := some 'o' }

/-- The options before a command. -/
def programOptions : List OptionForm :=
  [logLevelOption, helpOption, { long := "version", short := some 'V', role := .version }]

/-- The options of a run. -/
def runOptions : List OptionForm :=
  [{ long := "codemod", short := some 'c' }, outputOption, { long := "ignore" },
    { long := "stack", role := .flag }, logLevelOption, helpOption]

/-- The options for showing a tree. -/
def treeOptions : List OptionForm :=
  [outputOption, { long := "format" }, logLevelOption, helpOption]

/-- The options for listing codemods. -/
def listOptions : List OptionForm :=
  [logLevelOption, helpOption]

/-- The names of the commands. -/
inductive CommandName where
  | run
  | tree
  | list
  | help
deriving DecidableEq, Repr, Inhabited

/-- A command by its name. -/
def CommandName.ofString? : String → Option CommandName
  | "run" => some .run
  | "ast" => some .tree
  | "list" => some .list
  | "help" => some .help
  | _ => none

/-- The words that name commands. -/
def commandWords : List String := ["run", "ast", "list", "help"]

/-- A page of help: that of the program, or of a command, in its short or its long form. -/
structure HelpPage where
  command : Option CommandName := none
  long : Bool := false
deriving DecidableEq, Repr, Inhabited

/-- What the arguments ask for. -/
inductive Invocation where
  | execute (command : Command) (level : Level)
  | help (page : HelpPage)
  | version
  /-- Nothing: the arguments do not fit. -/
  | misuse
deriving DecidableEq, Repr, Inhabited

/-- A level by its name. -/
def level? : String → Option Level
  | "trace" => some .trace
  | "debug" => some .debug
  | "info" => some .info
  | "warn" => some .warn
  | "error" => some .error
  | _ => none

/-- A form of trees by its name. -/
def treeFormat? : String → Option TreeFormat
  | "text" => some .outline
  | "json" => some .json
  | _ => none

/-- A path, which has at least one character. -/
def path? (text : String) : Option Path :=
  if text = "" then none else some ⟨text⟩

/-- The parts of a text between commas. -/
def splitCommas (text : String) : List String :=
  text.splitOn ","

/-- What the items seen so far say. -/
structure Reading where
  level : Option Level := none
  codemods : List Path := []
  output : Option Path := none
  ignore : List Path := []
  withCauses : Bool := false
  format : Option TreeFormat := none
  operand : Option Path := none
deriving DecidableEq, Repr, Inhabited

namespace Reading

/-- Sets what can be set once. -/
def setOnce {α : Type} (current : Option α) (new : Option α) : Option (Option α) :=
  match current, new with
  | none, some value => some (some value)
  | _, _ => none

/-- Takes an item up; none when its value does not fit or it repeats what can be said once. -/
def add (reading : Reading) : Item → Option Reading
  | .flag _ => if reading.withCauses then none else some { reading with withCauses := true }
  | .value "log-level" text _ => do
    let level ← setOnce reading.level (level? text)
    some { reading with level }
  | .value "codemod" text _ => do
    let path ← path? text
    some { reading with codemods := reading.codemods ++ [path] }
  | .value "output" text _ => do
    let output ← setOnce reading.output (path? text)
    some { reading with output }
  | .value "ignore" text _ =>
    some { reading with ignore := reading.ignore ++ (splitCommas text).map Path.mk }
  | .value "format" text _ => do
    let format ← setOnce reading.format (treeFormat? text)
    some { reading with format }
  | .value _ _ _ => none
  | .operand text => do
    let operand ← setOnce reading.operand (path? text)
    some { reading with operand }

/-- Takes all items up. -/
def addAll (reading : Reading) (items : List Item) : Option Reading :=
  items.foldlM add reading

/-- The level of the log, if none is asked for. -/
def defaultLevel : Level := .warn

/-- The command that a reading asks for; none when something is missing. -/
def command? (reading : Reading) : CommandName → Option Command
  | .run => do
    let target ← reading.operand
    if reading.codemods.isEmpty then none
    else
      some (.run
        { codemods := reading.codemods, target, output := reading.output, ignore := reading.ignore,
          withCauses := reading.withCauses })
  | .tree => do
    let file ← reading.operand
    some (.tree file reading.output (reading.format.getD .outline))
  | .list => some .list
  | .help => none

end Reading

namespace Invocation

/-- The options of a command. -/
def optionsOf : CommandName → List OptionForm
  | .run => runOptions
  | .tree => treeOptions
  | .list => listOptions
  | .help => []

/-- Reads the arguments after the name of a command, given the level asked for before it. -/
def parseCommand (name : CommandName) (outer : Option Level) (arguments : List String) :
    Invocation :=
  let (items, ending) := scan (optionsOf name) [] arguments
  match Reading.addAll {} items with
  | none => .misuse
  | some reading =>
    if name = .list && reading.operand.isSome then .misuse
    else
      match ending with
      | .help long => .help ⟨some name, long⟩
      | .complete =>
        match reading.command? name with
        | some command => .execute command ((reading.level <|> outer).getD Reading.defaultLevel)
        | none => .misuse
      | _ => .misuse

/-- Reads the arguments of a request for the help page of a command. -/
def parseHelp : List String → Invocation
  | [] => .help ⟨none, true⟩
  | [word] =>
    match CommandName.ofString? word with
    | some name => .help ⟨some name, true⟩
    | none => .misuse
  | _ => .misuse

/-- The items that are checked before a command is read: all but a value that is an argument of its
own right before the name of the command. -/
def checkedFirst (items : List Item) : List Item :=
  if items.getLast?.any Item.isApart then items.dropLast else items

/-- Reads the name of a command and the arguments after it, given the items before it. Those of them
that are still to be checked decide only about a command that can be carried out. -/
def parseNamed (word : String) (items : List Item) (rest : List String) : Invocation :=
  match CommandName.ofString? word, Reading.addAll {} items with
  | none, _ => .misuse
  | some .help, _ => parseHelp rest
  | some name, some reading => parseCommand name reading.level rest
  | some name, none =>
    match parseCommand name none rest with
    | .help page => .help page
    | _ => .misuse

/-- Reads the arguments of the program. -/
def parse (arguments : List String) : Invocation :=
  let (items, ending) := scan programOptions commandWords arguments
  let checked :=
    match ending with
    | .command _ _ => checkedFirst items
    | _ => items
  match Reading.addAll {} checked with
  | none => .misuse
  | some reading =>
    if reading.operand.isSome then .misuse
    else
      match ending with
      | .help long => .help ⟨none, long⟩
      | .version => .version
      | .command word rest => parseNamed word items rest
      | _ => .misuse

end Invocation

end Retouch.Cli
