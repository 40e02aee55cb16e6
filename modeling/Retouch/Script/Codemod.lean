import Retouch.Codemod.Registry
import Retouch.Script.Visitor
import Retouch.Text.Quoted

/-!
# Scripted codemods

A scripted codemod reads options and reports them, asks for walks with scripted visitors, and edits
the tree before and after the walks. Every one of these can be made to fail. Its steps before and
after the walks are the edits of scripts and some more that look at the context or report to the
user.
-/

namespace Retouch.Script

/-- A step of a codemod before or after the walks. -/
inductive HookStep where
  /-- An edit of the tree. -/
  | onTree (edit : Edit)
  /-- Reports the context. -/
  | context
  /-- Reports an attribute of the context. -/
  | attributeValue (name : String)
  /-- Reports a line. -/
  | say (channel : Channel) (message : String)
  /-- Reports a problem. -/
  | warn (message : String)
  /-- Fails for inputs whose path ends with a text. -/
  | failOn (ending : String)
deriving Repr, Inhabited

/-- A scripted codemod. -/
structure CodemodScript where
  /-- Options that have to be there. -/
  required : List String := []
  /-- Options that may be there. -/
  optional : List String := []
  /-- The failure of the factory. -/
  constructFailure : Option Failure := none
  /-- The visitors of each walk. -/
  walks : List (List VisitorScript) := []
  /-- Whether the set-up is reported. -/
  reportsSetup : Bool := true
  /-- The failure of the set-up. -/
  setupFailure : Option Failure := none
  before : List HookStep := []
  after : List HookStep := []
deriving Inhabited

/-- Informs the user by a line. -/
def inform (message : String) : Event :=
  .line .out message

namespace HookStep

/-- The lines that describe a context. -/
def contextLines (context : Context) : List String :=
  let path (path : Option Path) :=
    Text.listingOption (path.map fun path => Text.listing path.raw)
  context.attributes.map (fun (name, value) => name ++ "=" ++ value) ++
    [path context.inputFile? ++ " " ++ path context.outputFile? ++ " " ++ toString context.isEmpty]

/-- Runs a step on a tree. -/
def run {σ : Type} (context : Context) (tree : Tree) : HookStep → HookM (HookState σ) Tree
  | onTree edit =>
    match edit.apply {} tree with
    | .ok (tree, _) => pure tree
    | .error failure => throw failure
  | .context => do
    modify fun state => state.append ((contextLines context).map inform)
    pure tree
  | attributeValue name => do
    reportEvent (inform ((context.get? name).getD "<none>"))
    pure tree
  | say .out message => do
    reportEvent (inform message)
    pure tree
  | say .err message => do
    reportEvent (.failure message)
    pure tree
  | warn message => do
    reportEvent (.warning message)
    pure tree
  | failOn ending =>
    let file := (context.get? Context.inputName).getD ""
    if file.endsWith ending then throw (.ofMessage ("refusing " ++ file)) else pure tree

/-- Runs steps on a tree, one after the other. -/
def runAll {σ : Type} (context : Context) : List HookStep → Tree → HookM (HookState σ) Tree
  | [], tree => pure tree
  | step :: rest, tree => do
    let tree ← step.run context tree
    runAll context rest tree

end HookStep

namespace CodemodScript

/-- Numbers the visitors of all walks, from a given number on. -/
def plan (first : Nat) : List (List VisitorScript) → Plan Counters
  | [] => []
  | scripts :: rest => VisitorScript.toVisitors first scripts :: plan (first + scripts.length) rest

/-- The codemod of a script. -/
def toCodemod (script : CodemodScript) : Codemod Counters where
  setup := do
    if script.reportsSetup then
      reportEvent (inform s!"setup {script.walks.length} {script.walks.isEmpty}")
    match script.setupFailure with
    | some failure => throw failure
    | none => pure (plan 0 script.walks)
  before context tree := HookStep.runAll context script.before tree
  after context tree := HookStep.runAll context script.after tree

/-- Reads the options that have to be there, and reports each of them. -/
def readRequired (options : Options) : List String → HookM Journal Unit
  | [] => pure ()
  | name :: rest => do
    match options.string name with
    | .error failure => throw failure
    | .ok value => do
      modify fun journal => journal.add (inform s!"option {name}={value}")
      readRequired options rest

/-- Reads the options that may be there, and reports each of them. -/
def readOptional (options : Options) : List String → HookM Journal Unit
  | [] => pure ()
  | name :: rest => do
    match options.string? name with
    | .error failure => throw failure
    | .ok value => do
      let shown := Text.listingOption (value.map Text.listing)
      modify fun journal => journal.add (inform s!"option {name}={shown}")
      readOptional options rest

/-- What the factory does before the codemod is there. -/
def construct (script : CodemodScript) (options : Options) : HookM Journal Unit := do
  readRequired options script.required
  readOptional options script.optional
  match script.constructFailure with
  | some failure => throw failure
  | none => pure ()

/-- The factory of a script. -/
def toFactory (script : CodemodScript) : Factory := fun options journal =>
  match script.construct options journal with
  | .ok _ journal => (.ok { codemod := script.toCodemod, initial := ([] : Counters) }, journal)
  | .error failure journal => (.error failure, journal)

/-- The script of a codemod that does and reports nothing. -/
def silent : CodemodScript :=
  { reportsSetup := false }

end CodemodScript

end Retouch.Script
