import Retouch.Layout.Print
import Retouch.Run.Ignore
import Retouch.Run.Output

/-!
# Transformers

A transformer takes texts, files and directories through one codemod, or through none.

* `onText`: reads the text by the grammar, lets the codemod transform the tree, and prints the
  result against the text. Nothing else is changed, and without a codemod the text comes back as it
  was.
* `onFile`: the same for the text of a file. The result is written if it differs from the text or
  goes to another file.
* `onDirectory`: every file below a directory with one of the extensions, in order of names and
  depth first, each to the same place below the output directory. Ignored paths and the output
  directory are left out with all that is below them; links are not followed.
* `onPath`: whichever the path leads to.
-/

namespace Retouch

/-- The language of the sources: how a text is read, and the extensions of its files. -/
structure Grammar where
  name : String
  /-- The concrete tree of a text. -/
  tree : String → Concrete
  extensions : List String

/-- Reads a text by the grammar. -/
def Grammar.parse (grammar : Grammar) (text : String) : Except SyntaxFault Parsed :=
  Concrete.read text (grammar.tree text)

/-- The grammar of PHP, given the concrete trees of its texts. -/
def Grammar.php (tree : String → Concrete) : Grammar :=
  { name := "php", tree, extensions := ["php", "php3", "php4", "php5", "php7", "phtml"] }

/-- A grammar with at most one codemod. -/
structure Transformer (σ : Type) where
  grammar : Grammar
  codemod : Option (Prepared σ) := none
  /-- Extensions that take the place of those of the grammar. -/
  ownExtensions : Option (List String) := none

namespace Transformer

variable {σ : Type}

/-- The extensions of the files that a directory run takes up. -/
def extensions (transformer : Transformer σ) : List String :=
  transformer.ownExtensions.getD transformer.grammar.extensions

/-- Takes a tree through the codemod with a context, which is forgotten afterwards. -/
def transformTree (codemod : Prepared σ) (context : Option Context) (tree : Tree) :
    EStateM RunError (Live σ) Tree := fun live =>
  let live := { live with context := context.getD .empty }
  match codemod.transform live.context tree ⟨live.own, live.journal⟩ with
  | .ok tree hooks => .ok tree ⟨hooks.own, .empty, hooks.journal⟩
  | .error failure hooks =>
    .error (.codemodFailed (context.bind Context.inputFile?) failure)
      ⟨hooks.own, .empty, hooks.journal⟩

/-- Transforms a text. -/
def onText (transformer : Transformer σ) (text : String) (context : Option Context) :
    EStateM RunError (Live σ) String :=
  match transformer.grammar.parse text with
  | .error fault => throw (.syntaxFault (context.bind Context.inputFile?) fault)
  | .ok parsed =>
    match transformer.codemod with
    | none => pure (parsed.print parsed.tree)
    | some codemod => do
      let tree ← transformTree codemod context parsed.tree
      pure (parsed.print tree)

/-- Transforms a file, and gives the path of the result. -/
def onFile (transformer : Transformer σ) (input : Path) (output : Option Path) : RunM σ Path := do
  let store ← RunM.files
  if !store.isFile input then throw (.fileNotFound input)
  else do
    let input := store.normalize input
    let target ← RunM.onFiles input (outputFile input output)
    let text ← RunM.onFiles input (FileM.readText input)
    let result ← RunM.onText (transformer.onText text (some (Context.forFile input target)))
    let changed : Bool := result != text
    if changed || !target.same input then RunM.onFiles target (FileM.writeText target result)
    RunM.report (.diagnostic
      ⟨.debug, "transformed file",
        [("input", input.raw), ("output", target.raw), ("changed", toString changed)]⟩)
    RunM.report (.transformed input target changed)
    pure target

/-! ## Directories -/

/-- What a directory run goes by: what is left out, which files are taken, and where results go. -/
structure WalkPlan where
  ignored : IgnoreSet
  extensions : List String
  output : Path

/-- Whether the walk leaves a path out, which it then reports. -/
def leavesOut (plan : WalkPlan) (path : Path) : RunM σ Bool := do
  let store ← RunM.files
  if plan.ignored.contains store path then do
    RunM.report (.diagnostic ⟨.debug, "ignored", [("path", path.raw)]⟩)
    pure true
  else pure false

/-- Transforms a file that the walk comes to, unless it leaves the file out, and gives the number of
files transformed. `relative` are the names that lead to it from the directory of the run. -/
def visitFile (transformer : Transformer σ) (plan : WalkPlan) (file : Path)
    (relative : List String) : RunM σ Nat := do
  if ← leavesOut plan file then pure 0
  else if file.hasExtension plan.extensions then do
    let target := plan.output.join ⟨"/".intercalate relative⟩
    let _ ← transformer.onFile file (some target)
    pure 1
  else pure 0

/-- Visits the entries of a directory in order, and gives the number of files transformed. -/
def visitEntries (visit : String → Entry → RunM σ Nat) : List (String × Entry) → RunM σ Nat
  | [] => pure 0
  | (name, entry) :: rest => do
    let here ← visit name entry
    let others ← visitEntries visit rest
    pure (here + others)

/-- Walks through a directory and at most `levels` levels of directories, itself included.
`relative` are the names that lead to it from the directory of the run. -/
def walkDirectory (transformer : Transformer σ) (plan : WalkPlan) :
    (levels : Nat) → (directory : Location) → (relative : List String) → RunM σ Nat
  | 0, _, _ => pure 0
  | levels + 1, directory, relative => do
    let path := directory.toPath
    if ← leavesOut plan path then pure 0
    else do
      let entries := (← RunM.files).list directory
      visitEntries
        (fun name entry => do
          let relative := relative ++ [name]
          match entry with
          | .directory => walkDirectory transformer plan levels (directory ++ [name]) relative
          | .file _ => visitFile transformer plan (directory ++ [name]).toPath relative
          | .link _ => do
            let _ ← leavesOut plan (directory ++ [name]).toPath
            pure 0)
        entries

/-- Transforms the files below a directory, and gives the path of the output directory. -/
def onDirectory (transformer : Transformer σ) (input : Path) (output : Option Path)
    (ignored : IgnoreSet) : RunM σ Path := do
  let store ← RunM.files
  match store.locate input with
  | .error _ => throw (.fileNotFound input)
  | .ok location =>
    if !store.isDirectoryAt location then throw (.fileNotFound input)
    else do
      let root := store.normalize input
      let target ← RunM.onWorld (output.getD root) (outputDirectory root output)
      let store ← RunM.files
      let ignored := if target.same root then ignored else ignored.insert store target
      let plan : WalkPlan := { ignored, extensions := transformer.extensions, output := target }
      let count ← walkDirectory transformer plan (store.entries.length + 1) location []
      RunM.report (.diagnostic
        ⟨.info, "transformed directory",
          [("input", root.raw), ("output", target.raw), ("files", toString count)]⟩)
      pure target

/-- Transforms what a path leads to. -/
def onPath (transformer : Transformer σ) (path : Path) (output : Option Path)
    (ignored : IgnoreSet) : RunM σ Path := do
  let store ← RunM.files
  if store.isDirectory path then transformer.onDirectory path output ignored
  else if store.isFile path then transformer.onFile path output
  else throw (.fileNotFound path)

end Transformer

end Retouch
