import Retouch.Text.Quoted
import Retouch.Tree.Node

/-!
# Outlines

A tree as a reader sees it: one line per node in document order, indented by two blanks per level,
with the role, the kind, the text and the place of the node. A node without a place is marked as
new.
-/

namespace Retouch

namespace Node

/-- What an outline says of the node itself. -/
def outlineLabel (node : Node) : String :=
  (node.field.map (· ++ ": ")).getD "" ++ node.kind ++
  (node.text.map fun text => " " ++ Text.listing text).getD "" ++
  (match node.span with
    | some span => s!" [{span.start}..{span.stop}]"
    | none => " (new)")

/-- The line of an outline for a node at the given level. -/
def outlineLine (level : Nat) (node : Node) : String :=
  String.ofList (List.replicate (2 * level) ' ') ++ node.outlineLabel

mutual

/-- The lines of an outline for the node and all nodes below it. -/
def outlineLines (level : Nat) : Node → List String
  | node@{ children, .. } => outlineLine level node :: outlineLinesList (level + 1) children

/-- The lines of an outline for a list of subtrees. -/
def outlineLinesList (level : Nat) : List Node → List String
  | [] => []
  | node :: rest => outlineLines level node ++ outlineLinesList level rest

end

end Node

/-- The outline of a tree, every line ended by a newline. -/
def Tree.outline (tree : Tree) : String :=
  String.join ((Node.outlineLinesList 0 tree.statements).map (· ++ "\n"))

end Retouch
