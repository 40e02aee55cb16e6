import Retouch.Tree.Address

/-!
# Descriptions of nodes

Scripts say which nodes they want by descriptions: fresh leaves and branches, copies of nodes from a
tree, and copies of the node at hand. A description stands for a list of nodes, and for none at all
if it asks for a node that is not there.
-/

namespace Retouch.Script

/-- The trees that nodes can be copied from. -/
inductive Bank where
  /-- The tree as it was read. -/
  | source
  /-- The tree of another source. -/
  | donor
  /-- The tree that is being edited. -/
  | working
deriving DecidableEq, Repr, Inhabited

/-- What is changed on a node after it is made: its text, then its role. -/
structure Touch where
  text : Option String := none
  field : Option String := none
deriving DecidableEq, Repr, Inhabited

/-- The node after the changes. -/
def Touch.apply (touch : Touch) (node : Node) : Node :=
  let node :=
    match touch.text with
    | some text => node.setText text
    | none => node
  match touch.field with
  | some field => node.withField field
  | none => node

/-- A description of nodes. -/
inductive NodeSpec where
  /-- The nodes of several descriptions, in order. -/
  | list (specs : List NodeSpec)
  /-- The children of the node at hand. -/
  | kids
  /-- The node at hand. -/
  | self (touch : Touch)
  /-- A node of a tree. -/
  | copy (bank : Bank) (address : Address) (touch : Touch)
  /-- A fresh branch. -/
  | branch (kind : String) (children : List NodeSpec) (touch : Touch)
  /-- A fresh leaf. -/
  | leaf (kind text : String) (touch : Touch)
deriving Repr, Inhabited

/-- What descriptions can refer to. -/
structure Scope where
  source : Option Tree := none
  donor : Option Tree := none
  working : Option Tree := none
  /-- The node at hand. -/
  current : Option Node := none
deriving Inhabited

/-- The tree of a bank. -/
def Scope.bank? (scope : Scope) : Bank → Option Tree
  | .source => scope.source
  | .donor => scope.donor
  | .working => scope.working

namespace NodeSpec

mutual

/-- The nodes that a description stands for. -/
def build? (scope : Scope) : NodeSpec → Option (List Node)
  | list specs => buildAll? scope specs
  | kids => scope.current.map Node.children
  | self touch => scope.current.map fun node => [touch.apply node]
  | copy bank address touch => do
    let tree ← scope.bank? bank
    let node ← address.node? tree
    some [touch.apply node]
  | branch kind children touch => do
    let children ← buildAll? scope children
    some [touch.apply (Node.branch kind children)]
  | leaf kind text touch => some [touch.apply (Node.leaf kind text)]

/-- The nodes that several descriptions stand for, in order. -/
def buildAll? (scope : Scope) : List NodeSpec → Option (List Node)
  | [] => some []
  | spec :: rest => do
    let first ← build? scope spec
    let others ← buildAll? scope rest
    some (first ++ others)

end

/-- The first of the nodes that a description stands for. -/
def buildOne? (scope : Scope) (spec : NodeSpec) : Option Node :=
  (spec.build? scope).bind List.head?

end NodeSpec

end Retouch.Script
