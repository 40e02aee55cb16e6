import Retouch.Layout.Print
import Retouch.Script.Spec
import Retouch.Failure
import Retouch.Tree.Outline

/-!
# Edits

The steps of a script that look at a tree or change it. An edit that refers to a node that is not
there changes nothing and says so; an edit may also fail on purpose.
-/

namespace Retouch.Script

/-- A step that looks at a tree or changes it. -/
inductive Edit where
  /-- Adds nodes as statements at the end. -/
  | push (nodes : NodeSpec)
  /-- Gives a node a text. -/
  | setText (address : Address) (text : String)
  /-- Puts a node in the place of another. -/
  | replace (address : Address) (node : NodeSpec)
  /-- Inserts nodes into a list of nodes; the last number is the place in the list. -/
  | insert (path : List Nat) (nodes : NodeSpec)
  /-- Removes a node. -/
  | remove (path : List Nat)
  /-- Exchanges two nodes of a list. -/
  | swap (path : List Nat) (first second : Nat)
  /-- Reverses a list of nodes. -/
  | reverse (path : List Nat)
  /-- Empties a list of nodes. -/
  | clear (path : List Nat)
  /-- Makes a new tree of the statements, and counts them. -/
  | rebuild
  /-- Looks at a node. -/
  | look (address : Address)
  /-- The code of a node on its own. -/
  | code (address : Address)
  /-- All nodes of a kind, in the tree or at and below a node. -/
  | findAll (kind : String) (under : Option Address)
  /-- The outline of the tree. -/
  | outline
  /-- The number of statements. -/
  | length
  /-- Fails with a message, and further messages put around it in order. -/
  | fail (message : String) (contexts : List String)
  /-- Nothing that there is. -/
  | unknown
deriving Repr, Inhabited

/-- What an edit answers. -/
inductive Answer where
  /-- Something that it refers to is not there. -/
  | missing
  | done
  | node (node : Node)
  | nodes (nodes : List Node)
  | text (text : String)
  | count (number : Nat)
  | length (number : Nat)
deriving Repr, Inhabited

namespace Edit

/-- The failure of an edit that fails on purpose. -/
def failure (message : String) (contexts : List String) : Failure :=
  contexts.foldl Failure.context (Failure.ofMessage message)

/-- Exchanges two nodes of a list. -/
def swapNodes? (first second : Nat) (nodes : List Node) : Option (List Node) := do
  let a ← nodes[first]?
  let b ← nodes[second]?
  some ((nodes.set first b).set second a)

/-- The tree after an edit that changes it and answers no more than that; none when something is not
there. -/
def changed? (scope : Scope) (tree : Tree) : Edit → Option Tree
  | push nodes => do
    let nodes ← nodes.build? scope
    some ⟨tree.statements ++ nodes⟩
  | setText address text => do
    let path ← address.locate? tree
    tree.modifyAt? path fun node => node.setText text
  | replace address spec => do
    let replacement ← spec.buildOne? scope
    let path ← address.locate? tree
    tree.modifyAt? path fun node => node.replaceWith replacement
  | insert path spec => do
    let nodes ← spec.build? scope
    let index ← path.getLast?
    tree.modifyListAt? path.dropLast fun list =>
      if index ≤ list.length then some (list.take index ++ nodes ++ list.drop index) else none
  | swap path first second => tree.modifyListAt? path (swapNodes? first second)
  | reverse path => tree.modifyListAt? path fun list => some list.reverse
  | clear path => tree.modifyListAt? path fun _ => some []
  | _ => none

/-- What an edit answers that only looks at the tree; none when something is not there. -/
def looked? (tree : Tree) : Edit → Option Answer
  | look address => (address.node? tree).map .node
  | code address => (address.node? tree).map fun node => .text node.toCode
  | findAll kind none => some (.nodes (tree.findAll kind))
  | findAll kind (some under) => (under.node? tree).map fun node => .nodes (node.findAll kind)
  | outline => some (.text tree.outline)
  | length => some (.length tree.length)
  | _ => none

/-- Applies an edit to a tree. -/
def apply (scope : Scope) (edit : Edit) (tree : Tree) : Except Failure (Tree × Answer) :=
  let scope := { scope with working := some tree }
  match edit with
  | fail message contexts => .error (failure message contexts)
  | rebuild => .ok (tree, .count tree.length)
  | remove path =>
    match tree.atPath? path, path.getLast? with
    | some node, some index =>
      match tree.modifyListAt? path.dropLast fun list => some (list.eraseIdx index) with
      | some tree => .ok (tree, .node node)
      | none => .ok (tree, .missing)
    | _, _ => .ok (tree, .missing)
  | look _ | code _ | findAll _ _ | outline | length =>
    .ok (tree, (edit.looked? tree).getD .missing)
  | edit =>
    match edit.changed? scope tree with
    | some tree => .ok (tree, .done)
    | none => .ok (tree, .missing)

/-- Applies edits to a tree, one after the other, up to the first that fails. -/
def applyAll (scope : Scope) : List Edit → Tree → Except Failure Tree
  | [], tree => .ok tree
  | edit :: rest, tree => do
    let (tree, _) ← edit.apply scope tree
    applyAll scope rest tree

end Edit

end Retouch.Script
