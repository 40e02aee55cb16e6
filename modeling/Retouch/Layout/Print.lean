import Std.Data.TreeMap
import Retouch.Layout.Gap
import Retouch.Tree.Concrete

/-!
# Printing that keeps the layout

Prints a working tree against the source that it came from.

* A node is **kept** when it stands for a source node of the same kind and the same text, or, as a
  branch, when its children are the children of that source node in the same order and are all kept
  themselves. A kept node prints as its slice of the source, comments and blanks inside included.
* Every other node is **fresh**: a leaf prints its text, and a branch prints its children joined by
  gaps (`Retouch.Layout.Gap`), between the blanks that the source has at its inner edges.

The text before the first and after the last statement of the source is kept around the statements,
and a tree whose statements are all in place and kept prints as the source itself.
-/

namespace Retouch

namespace Layout

/-- What printing draws on: the source text, and the node of the source with a given identity. -/
structure Basis where
  source : String
  find? : NodeId → Option Node

/-- The nodes of a tree by identity; of several with one identity, the last in document order. -/
def index (tree : Tree) : Std.TreeMap Nat Node :=
  tree.nodes.foldl
    (fun known node =>
      match node.origin with
      | some id => known.insert id.index node
      | none => known)
    ∅

/-- What printing draws on for a tree and its source text. -/
def Basis.ofTree (source : String) (tree : Tree) : Basis :=
  let known := index tree
  ⟨source, fun id => known[id.index]?⟩

/-- Nothing to draw on. -/
def Basis.none : Basis :=
  ⟨"", fun _ => Option.none⟩

/-- How a node prints: as a slice of the source, or as text of its own. -/
inductive Fragment where
  | kept (span : Span)
  | fresh (text : String)
deriving DecidableEq, Repr, Inhabited

namespace Fragment

/-- Whether the node prints as a slice of the source. -/
def isKept : Fragment → Bool
  | kept _ => true
  | fresh _ => false

/-- The text that the node prints as. -/
def toText (source : String) : Fragment → String
  | kept span => Text.sliceString source span
  | fresh text => text

end Fragment

/-- Whether the nodes of a list are the given source nodes, one for one. -/
def sameOrigins (bases nodes : List Node) : Bool :=
  bases.length = nodes.length &&
    (bases.zip nodes).all fun (base, node) =>
      node.origin.isSome && node.origin = base.origin

/-- Appends texts to what is printed, each after the gap to the node before it. -/
def joinAfter (source : String) (statements : Bool) (printed : String) (left : Node) :
    List (Node × String) → String
  | [] => printed
  | (right, text) :: rest =>
    let between := gap source statements left right printed text
    joinAfter source statements (printed ++ between ++ text) right rest

/-- Appends the texts of neighbouring nodes to what is printed, with the gaps between them. -/
def join (source : String) (statements : Bool) (printed : String) :
    List (Node × String) → String
  | [] => printed
  | (first, text) :: rest => joinAfter source statements (printed ++ text) first rest

/-- The fragment of a leaf, given the source node that it stands for. -/
def leafFragment (counterpart : Option Node) (kind text : String) : Fragment :=
  match counterpart with
  | some base =>
    if base.kind = kind ∧ base.text = some text then
      match base.span with
      | some span => .kept span
      | none => .fresh text
    else .fresh text
  | none => .fresh text

/-- The slice that a branch is kept as, given the source node that it stands for and the fragments
of its children. -/
def keptSpan? (base node : Node) (parts : List Fragment) : Option Span :=
  if base.kind = node.kind && !base.isLeaf && sameOrigins base.children node.children &&
      parts.all Fragment.isKept then
    base.span
  else none

/-- The text of a branch that is put together from its children. -/
def rebuild (source : String) (node : Node) (parts : List Fragment) : String :=
  let (lead, trail) := edgeGaps source node
  join source false lead (node.children.zip (parts.map (Fragment.toText source))) ++ trail

/-- The fragment of a branch. -/
def branchFragment (source : String) (counterpart : Option Node) (node : Node)
    (parts : List Fragment) : Fragment :=
  match counterpart.bind fun base => keptSpan? base node parts with
  | some span => .kept span
  | none => .fresh (rebuild source node parts)

mutual

/-- How a node prints. -/
def fragment (basis : Basis) : Node → Fragment
  | node@{ children, .. } =>
    let counterpart := node.origin.bind basis.find?
    match node.text with
    | some text => leafFragment counterpart node.kind text
    | none => branchFragment basis.source counterpart node (fragments basis children)

/-- How the nodes of a list print. -/
def fragments (basis : Basis) : List Node → List Fragment
  | [] => []
  | node :: rest => fragment basis node :: fragments basis rest

end

/-- Where the statements of a source begin and end. Without statements that have a place, everything
stands before them. -/
def statementsSpan (source : String) (tree : Tree) : Span :=
  match tree.statements.head?.bind Node.span, tree.statements.getLast?.bind Node.span with
  | some first, some last => ⟨first.start, last.stop⟩
  | _, _ => ⟨source.utf8ByteSize, source.utf8ByteSize⟩

/-- Prints the tree `edited` against the tree `base` and the source text that it was read from. -/
def print (base : Tree) (source : String) (edited : Tree) : String :=
  let parts := fragments (.ofTree source base) edited.statements
  if sameOrigins base.statements edited.statements && parts.all Fragment.isKept then source
  else
    let body := statementsSpan source base
    let lead := Text.sliceString source ⟨0, body.start⟩
    let trail := Text.sliceString source ⟨body.stop, source.utf8ByteSize⟩
    join source true lead (edited.statements.zip (parts.map (Fragment.toText source))) ++ trail

end Layout

/-- Prints a tree against the source that `parsed` was read from. -/
def Parsed.print (parsed : Parsed) (edited : Tree) : String :=
  Layout.print parsed.tree parsed.tokens.source edited

/-- The code of a node on its own, without any source to draw on. -/
def Node.toCode (node : Node) : String :=
  (Layout.fragment .none node).toText ""

end Retouch
