import Retouch.Tree.Node

/-!
# Addresses in trees

An *index path* leads from the statements down to a node: the first number picks a statement, each
further one a child. An address is an index path, or a search that finds one: the first node of a
kind, in the whole tree or at and below a node, and then possibly its first child in a role.
-/

namespace Retouch

namespace Node

mutual

/-- The index path from the node to the first node of a kind at or below it. -/
def pathToFirst? (kind : String) : Node → Option (List Nat)
  | node@{ children, .. } => if node.kind = kind then some [] else pathToFirstList? kind 0 children

/-- The index path to the first node of a kind in a list of subtrees, the first of which is numbered
`index`. -/
def pathToFirstList? (kind : String) (index : Nat) : List Node → Option (List Nat)
  | [] => none
  | node :: rest =>
    match pathToFirst? kind node with
    | some path => some (index :: path)
    | none => pathToFirstList? kind (index + 1) rest

end

/-- The node at the end of an index path in a list of nodes; none for the empty path. -/
def atPath? : List Nat → List Node → Option Node
  | [], _ => none
  | [index], nodes => nodes[index]?
  | index :: path, nodes => nodes[index]?.bind fun node => atPath? path node.children

/-- Changes the list of nodes at the end of an index path: for the empty path the list itself, else
the children of a node. None when the path leads nowhere, or the change gives nothing. -/
def modifyListAt? (change : List Node → Option (List Node)) :
    List Nat → List Node → Option (List Node)
  | [], nodes => change nodes
  | index :: path, nodes => do
    let node ← nodes[index]?
    let children ← modifyListAt? change path node.children
    some (nodes.set index { node with children })

end Node

namespace Tree

/-- The node at the end of an index path; none for the empty path. -/
def atPath? (tree : Tree) (path : List Nat) : Option Node :=
  Node.atPath? path tree.statements

/-- Changes the list of nodes at the end of an index path; the empty path stands for the statements.
-/
def modifyListAt? (tree : Tree) (path : List Nat) (change : List Node → Option (List Node)) :
    Option Tree :=
  (Node.modifyListAt? change path tree.statements).map Tree.mk

/-- Changes the node at the end of an index path; none when the path leads nowhere. -/
def modifyAt? (tree : Tree) (path : List Nat) (change : Node → Node) : Option Tree := do
  let index ← path.getLast?
  tree.modifyListAt? path.dropLast fun nodes => do
    let node ← nodes[index]?
    some (nodes.set index (change node))

end Tree

/-- Where a node is in a tree. -/
inductive Address where
  /-- By an index path. -/
  | path (indices : List Nat)
  /-- By a search for a kind, at and below the node at an index path if one is given, and then for a
  role among the children. -/
  | search (kind : String) (under : Option (List Nat)) (field : Option String)
deriving DecidableEq, Repr, Inhabited

namespace Address

/-- The index path of an address; none when there is no such node. -/
def locate? (tree : Tree) : Address → Option (List Nat)
  | path indices => do
    let _ ← tree.atPath? indices
    some indices
  | search kind under field => do
    let start ←
      match under with
      | none => Node.pathToFirstList? kind 0 tree.statements
      | some indices => do
        let node ← tree.atPath? indices
        let path ← node.pathToFirst? kind
        some (indices ++ path)
    match field with
    | none => some start
    | some field => do
      let node ← tree.atPath? start
      let index ← node.children.findIdx? fun child => child.field = some field
      some (start ++ [index])

/-- The node at an address. -/
def node? (tree : Tree) (address : Address) : Option Node :=
  (address.locate? tree).bind tree.atPath?

end Address

end Retouch
