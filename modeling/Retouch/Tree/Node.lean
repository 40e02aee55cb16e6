import Retouch.Text.Slice

/-!
# Nodes and trees

The working form of a source file: a list of statement-level nodes. A leaf holds the text of a token
and a branch holds children. A node that was read from a source carries two marks that survive
copying, the identity of the node it was read as (`origin`) and its place in the source (`span`); a
node that a codemod makes has neither. The marks are what lets printing give back untouched code
byte for byte.

A node may hold text *and* children, since children can be put under a leaf. Its text then stands
for the whole node, and the children count only for search.
-/

namespace Retouch

/-- Identity of a node of a source file, unique in that file. -/
structure NodeId where
  index : Nat
deriving DecidableEq, Repr, Hashable, Inhabited

/-- One node of a working tree. -/
structure Node where
  /-- Grammatical kind. -/
  kind : String
  /-- Name of the role that the node plays in its parent. -/
  field : Option String := none
  /-- Token text, for a leaf. -/
  text : Option String := none
  children : List Node := []
  /-- The source node that this one is a copy of. -/
  origin : Option NodeId := none
  /-- Place in the source text. -/
  span : Option Span := none
deriving Repr, Inhabited

/-- The statement-level nodes of one source file, in order. -/
structure Tree where
  statements : List Node := []
deriving Repr, Inhabited

namespace Node

/-! ## Making nodes -/

/-- A fresh leaf. -/
def leaf (kind text : String) : Node :=
  { kind, text := some text }

/-- A fresh branch. -/
def branch (kind : String) (children : List Node) : Node :=
  { kind, children }

/-- The node in the role `field`. -/
def withField (node : Node) (field : String) : Node :=
  { node with field := some field }

/-- Whether the node has text of its own. -/
def isLeaf (node : Node) : Bool :=
  node.text.isSome

/-! ## Changing nodes -/

/-- Turns the node into a leaf with the given text. Its marks stay, so the gaps around it do too. -/
def setText (node : Node) (text : String) : Node :=
  { node with text := some text, children := [] }

/-- Puts `replacement` in the place of the node: it keeps its own identity, and takes over the place
and the role of the node where it has none itself. -/
def replaceWith (node replacement : Node) : Node :=
  { replacement with
    span := replacement.span <|> node.span
    field := replacement.field <|> node.field }

/-! ## Equality

Two nodes are equal when all of their parts are, the marks included.
-/

mutual

/-- Decides equality of nodes. -/
def decEq : (a b : Node) → Decidable (a = b)
  | ⟨kind, field, text, children, origin, span⟩,
    ⟨kind', field', text', children', origin', span'⟩ =>
    match decEqList children children' with
    | isTrue same =>
      decidable_of_iff
        (kind = kind' ∧ field = field' ∧ text = text' ∧ origin = origin' ∧ span = span')
        (by simp [same])
    | isFalse differ => isFalse (by simp [differ])

/-- Decides equality of lists of nodes. -/
def decEqList : (as bs : List Node) → Decidable (as = bs)
  | [], [] => isTrue rfl
  | [], _ :: _ => isFalse (by simp)
  | _ :: _, [] => isFalse (by simp)
  | a :: as, b :: bs =>
    match decEq a b with
    | isTrue same =>
      match decEqList as bs with
      | isTrue rest => isTrue (by rw [same, rest])
      | isFalse differ => isFalse (by simp [differ])
    | isFalse differ => isFalse (by simp [differ])

end

instance : DecidableEq Node := decEq

/-! ## Measures and views -/

mutual

/-- The node and all nodes below it, each before its children. -/
def preorder : Node → List Node
  | node@{ children, .. } => node :: preorderList children

/-- All nodes of a list of subtrees, each before its children. -/
def preorderList : List Node → List Node
  | [] => []
  | node :: rest => preorder node ++ preorderList rest

end

mutual

/-- Number of nodes on the longest way down. -/
def depth : Node → Nat
  | { children, .. } => depthList children + 1

/-- Number of nodes on the longest way down in a list of subtrees. -/
def depthList : List Node → Nat
  | [] => 0
  | node :: rest => max (depth node) (depthList rest)

end

/-! ## Search -/

/-- The first child in the role `field`. -/
def childByField? (node : Node) (field : String) : Option Node :=
  node.children.find? fun child => child.field = some field

/-- Changes the first child in the role `field`; without such a child the node stays as it is. -/
def modifyChildByField (node : Node) (field : String) (change : Node → Node) : Node :=
  { node with children := modifyIn node.children }
where
  /-- Changes the first node of a list in the role `field`. -/
  modifyIn : List Node → List Node
    | [] => []
    | child :: rest =>
      if child.field = some field then change child :: rest else child :: modifyIn rest

mutual

/-- The first node with a property at or below the node, parents before children. -/
def findWhere? (holds : Node → Bool) : Node → Option Node
  | node@{ children, .. } => if holds node then some node else findWhereList? holds children

/-- The first node with a property in a list of subtrees. -/
def findWhereList? (holds : Node → Bool) : List Node → Option Node
  | [] => none
  | node :: rest => findWhere? holds node <|> findWhereList? holds rest

end

mutual

/-- Changes the first node with a property at or below the node; none when there is none. -/
def modifyWhere? (holds : Node → Bool) (change : Node → Node) : Node → Option Node
  | node@{ children, .. } =>
    if holds node then some (change node)
    else (modifyWhereList? holds change children).map fun children => { node with children }

/-- Changes the first node with a property in a list of subtrees. -/
def modifyWhereList? (holds : Node → Bool) (change : Node → Node) : List Node → Option (List Node)
  | [] => none
  | node :: rest =>
    match modifyWhere? holds change node with
    | some changed => some (changed :: rest)
    | none => (modifyWhereList? holds change rest).map (node :: ·)

end

mutual

/-- All nodes of a kind at or below the node, parents before children. -/
def findAll (kind : String) : Node → List Node
  | node@{ children, .. } =>
    if node.kind = kind then node :: findAllList kind children else findAllList kind children

/-- All nodes of a kind in a list of subtrees. -/
def findAllList (kind : String) : List Node → List Node
  | [] => []
  | node :: rest => findAll kind node ++ findAllList kind rest

end

/-- Whether the node is of a kind. -/
def isKind (kind : String) (node : Node) : Bool :=
  node.kind = kind

/-- The first node of a kind at or below the node. -/
def findFirst? (kind : String) (node : Node) : Option Node :=
  node.findWhere? (isKind kind)

/-- Changes the first node of a kind at or below the node; none when there is none. -/
def modifyFirst? (kind : String) (change : Node → Node) (node : Node) : Option Node :=
  node.modifyWhere? (isKind kind) change

end Node

namespace Tree

deriving instance DecidableEq for Tree

/-- Number of statements. -/
def length (tree : Tree) : Nat :=
  tree.statements.length

/-- Whether there is no statement. -/
def isEmpty (tree : Tree) : Bool :=
  tree.statements.isEmpty

/-- Adds a statement at the end. -/
def push (tree : Tree) (statement : Node) : Tree :=
  ⟨tree.statements ++ [statement]⟩

/-- All nodes in document order. -/
def nodes (tree : Tree) : List Node :=
  Node.preorderList tree.statements

/-- Number of nodes on the longest way down. -/
def depth (tree : Tree) : Nat :=
  Node.depthList tree.statements

/-- The first node with a property in document order. -/
def findWhere? (tree : Tree) (holds : Node → Bool) : Option Node :=
  Node.findWhereList? holds tree.statements

/-- Changes the first node with a property in document order; none when there is none. -/
def modifyWhere? (tree : Tree) (holds : Node → Bool) (change : Node → Node) : Option Tree :=
  (Node.modifyWhereList? holds change tree.statements).map Tree.mk

/-- The first node of a kind in document order. -/
def findFirst? (tree : Tree) (kind : String) : Option Node :=
  tree.findWhere? (Node.isKind kind)

/-- All nodes of a kind in document order. -/
def findAll (tree : Tree) (kind : String) : List Node :=
  Node.findAllList kind tree.statements

/-- Changes the first node of a kind in document order; none when there is none. -/
def modifyFirst? (tree : Tree) (kind : String) (change : Node → Node) : Option Tree :=
  tree.modifyWhere? (Node.isKind kind) change

end Tree

end Retouch
