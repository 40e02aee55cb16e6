import Retouch.Codemod.Basic
import Retouch.Codemod.Manifest
import Retouch.Text.Letter

/-!
# Renaming a function

A codemod that renames one declared function: the first one of a given name, or the first one at
all. It works on the tree before any walk, changes only the name in the declaration, and leaves
calls alone. When there is no such function it warns.
-/

namespace Retouch.RenameFunction

/-- The name of the codemod. -/
def codemodName : String := "rename-function"

/-- The kind of a declaration. -/
def functionKind : String := "function_definition"

/-- The role of the name in a declaration. -/
def nameField : String := "name"

/-- The name that a declaration has. -/
def declaredName? (node : Node) : Option String :=
  (node.childByField? nameField).bind Node.text

/-- Whether a node declares the function to rename. -/
def isTarget (name : Option String) (node : Node) : Bool :=
  match name with
  | none => node.kind = functionKind
  | some name => node.kind = functionKind && declaredName? node = some name

/-- What the warning says when there is no function to rename. -/
def notFoundMessage (name : Option String) (context : Context) : String :=
  let what :=
    match name with
    | some name => s!"no function named `{name}`"
    | none => "no function declaration"
  let file := ((context.inputFile?).map Path.raw).getD "<text>"
  s!"{what} in {file}"

/-- Renames the function in a tree. -/
def rename {σ : Type} (name : Option String) (newName : String) (context : Context) (tree : Tree) :
    HookM (HookState σ) Tree := do
  match (tree.findWhere? (isTarget name)).bind fun node => node.childByField? nameField with
  | some nameNode => do
    reportEvent (.diagnostic
      ⟨.debug, "renaming function", [("from", nameNode.text.getD ""), ("to", newName)]⟩)
    let change (node : Node) := node.modifyChildByField nameField fun child => child.setText newName
    pure ((tree.modifyWhere? (isTarget name) change).getD tree)
  | none => do
    reportEvent (.warning (notFoundMessage name context))
    pure tree

/-- The codemod, which has no state of its own. -/
def codemod (name : Option String) (newName : String) : Codemod Unit where
  before := rename name newName

/-- Makes the codemod from its options. -/
def ofOptions (options : Options) : Except Failure (Codemod Unit) := do
  let newName ← options.string "to"
  if Text.isIdentifier newName then
    let name ← options.string? "from"
    .ok (codemod name newName)
  else
    .error (.ofMessage ("option `to` is not a valid function name: " ++ Text.listing newName))

end Retouch.RenameFunction
