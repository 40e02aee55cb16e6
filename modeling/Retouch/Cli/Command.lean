import Retouch.Run.Runner
import Retouch.Tree.Json
import Retouch.Tree.Outline

/-!
# Commands

What the program can be asked to do: run codemods over a target, show the tree of a file, and list
the codemods that come with it. A command reports its errors to the journal, and gives them back for
the code that the program ends with.
-/

namespace Retouch.Cli

/-- What a run of codemods is asked for. -/
structure RunRequest where
  /-- The manifests of the codemods, in order. -/
  codemods : List Path
  target : Path
  output : Option Path := none
  ignore : List Path := []
  /-- Whether an error is reported with its causes. -/
  withCauses : Bool := false
deriving DecidableEq, Repr, Inhabited

/-- Runs the codemods that come with the program, without a report of errors. -/
def RunRequest.execute (request : RunRequest) (grammar : Grammar) (world : World) :
    Except RunError Path × World :=
  if request.codemods.isEmpty then
    (.error (.invalidArguments "at least one codemod is required"), world)
  else
    let runner : Runner := { registry := .builtin, grammar, schedule := request.codemods }
    runner.execute request.target request.output request.ignore world

/-- Reports the error of a result, if it is one. -/
def reportError {α : Type} (withCauses : Bool) :
    Except RunError α × World → Except RunError α × World
  | (.ok value, world) => (.ok value, world)
  | (.error error, world) =>
    (.error error, { world with journal := world.journal.append (error.report withCauses) })

/-- Runs the codemods and reports an error. -/
def RunRequest.run (request : RunRequest) (grammar : Grammar) (world : World) :
    Except RunError Path × World :=
  reportError request.withCauses (request.execute grammar world)

/-- The forms in which a tree is shown. -/
inductive TreeFormat where
  /-- An outline, one node on a line. -/
  | outline
  | json
deriving DecidableEq, Repr, Inhabited

/-- The tree of a text in a form. -/
def TreeFormat.render : TreeFormat → Tree → String
  | outline, tree => tree.outline
  | json, tree => tree.toJson.pretty 0 ++ "\n"

/-- The tree of a file in a form. -/
def showTree (grammar : Grammar) (store : FileStore) (file : Path) (format : TreeFormat) :
    Except RunError String :=
  if !store.isFile file then .error (.fileNotFound file)
  else
    match store.readText file with
    | .error error => .error (.fileFailed file error)
    | .ok text =>
      match grammar.parse text with
      | .error fault => .error (.syntaxFault (some file) fault)
      | .ok parsed => .ok (format.render parsed.tree)

/-- A text without the line ends that it ends with. -/
def dropFinalNewlines (text : String) : String :=
  String.ofList (text.toList.reverse.dropWhile (· = '\n')).reverse

/-- Writes a content to a file, with the directories that lead there. -/
def writeOutput (content : String) (file : Path) (store : FileStore) :
    Except RunError Unit × FileStore :=
  let above : FileM Unit :=
    match file.parent? with
    | some parent => if parent.raw = "" then pure () else FileM.createDirectories parent
    | none => pure ()
  match above store with
  | .error error store => (.error (.fileFailed (file.parent?.getD file) error), store)
  | .ok () store =>
    match FileM.writeText file content store with
    | .error error store => (.error (.fileFailed file error), store)
    | .ok () store => (.ok (), store)

/-- Writes a content to a file, or to the user if there is none. -/
def emit (content : String) (output : Option Path) (world : World) : Except RunError Unit × World :=
  match output with
  | some file =>
    let (result, store) := writeOutput content file world.store
    (result, { world with store })
  | none =>
    let line := Event.line .out (dropFinalNewlines content)
    (.ok (), { world with journal := world.journal.add line })

/-- The names of the codemods that come with the program. -/
def codemodNames : List String :=
  Registry.builtin.names

/-- What the program is asked to do. -/
inductive Command where
  | run (request : RunRequest)
  | tree (file : Path) (output : Option Path) (format : TreeFormat)
  | list
deriving DecidableEq, Repr, Inhabited

namespace Command

/-- Does what a command asks for, and reports an error. -/
def execute (command : Command) (grammar : Grammar) (world : World) :
    Except RunError Unit × World :=
  match command with
  | run request =>
    match request.run grammar world with
    | (.ok _, world) => (.ok (), world)
    | (.error error, world) => (.error error, world)
  | tree file output format =>
    reportError false
      (match showTree grammar world.store file format with
      | .error error => (.error error, world)
      | .ok shown => emit shown output world)
  | list =>
    (.ok (), { world with journal := world.journal.append (codemodNames.map (Event.line .out)) })

end Command

end Retouch.Cli
