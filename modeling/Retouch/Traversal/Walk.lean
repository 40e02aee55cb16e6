import Retouch.Traversal.Visitor

/-!
# Walks

One walk over a tree with a list of visitors.

* `enterAll`: every visitor enters the node in order. If one of them asks to skip the children, they
  are skipped for all; a visitor that stops ends the walk at once.
* `leaveAll`: every visitor leaves the node in order, up to the first that does not keep it.
* `walkNode`, `walkList`: entering, then the children as the visitors left them, then leaving. Once
  a walk has stopped, all nodes that remain are kept as they are and nothing more is left.
* `traverseWithin`, `traverse`: the hooks before, the walk over the statements, the hooks after.

Entering a node may give it new children, which are walked in turn, so the tree alone does not bound
how deep a walk goes. The walk therefore has a limit on its depth, beyond that of the tree. A walk
whose visitors do not deepen the tree never reaches the limit. Any other walk that ends at all does
so within some limit, and then a larger one makes no difference; `traverse` sets one that leaves
room for much growth.
-/

namespace Retouch

/-- Why a walk failed. -/
inductive WalkError where
  /-- A hook failed. -/
  | hook (failure : Failure)
  /-- The visitors deepened the tree beyond the limit. -/
  | tooDeep
deriving DecidableEq, Repr, Inhabited

/-- The failure to report for a failed walk. -/
def WalkError.toFailure : WalkError → Failure
  | hook failure => failure
  | tooDeep => .ofMessage "the tree grows too deep"

/-- What a walk made of some nodes, and whether it has stopped. -/
structure Walked where
  nodes : List Node
  stopped : Bool
deriving DecidableEq, Repr, Inhabited

namespace Traversal

variable {σ : Type}

/-- An action of a walk. -/
abbrev WalkM (σ : Type) : Type → Type :=
  EStateM WalkError σ

/-- A hook as an action of a walk. -/
def liftHook {α : Type} (action : HookM σ α) : WalkM σ α :=
  focus id (fun state _ => state) WalkError.hook action

/-- Enters a node with all visitors; `skipping` says that one of the earlier ones asked to skip. -/
def enterAll : List (Visitor σ) → Bool → Node → HookM σ (Node × Descent)
  | [], skipping, node => pure (node, if skipping then .skip else .into)
  | visitor :: rest, skipping, node => do
    let (node, descent) ← visitor.enter node
    match descent with
    | .into => enterAll rest skipping node
    | .skip => enterAll rest true node
    | .stop => pure (node, .stop)

/-- Leaves a node with all visitors, and gives what stays in its place. -/
def leaveAll : List (Visitor σ) → Node → HookM σ (List Node)
  | [], node => pure [node]
  | visitor :: rest, node => do
    let (node, verdict) ← visitor.leave node
    match verdict with
    | .keep => leaveAll rest node
    | .remove => pure []
    | .replace nodes => pure nodes

/-- Walks over neighbours, given the walk over one node. -/
def walkList (walk : Node → WalkM σ Walked) : List Node → WalkM σ Walked
  | [] => pure ⟨[], false⟩
  | node :: rest => do
    let first ← walk node
    if first.stopped then pure ⟨first.nodes ++ rest, true⟩
    else
      let others ← walkList walk rest
      pure ⟨first.nodes ++ others.nodes, others.stopped⟩

/-- Walks over a node and at most `limit` levels of nodes, its own included. -/
def walkNode (visitors : List (Visitor σ)) : Nat → Node → WalkM σ Walked
  | 0, _ => throw .tooDeep
  | limit + 1, node => do
    let (node, descent) ← liftHook (enterAll visitors false node)
    match descent with
    | .stop => pure ⟨[node], true⟩
    | .skip => do
      let nodes ← liftHook (leaveAll visitors node)
      pure ⟨nodes, false⟩
    | .into => do
      let below ← walkList (walkNode visitors limit) node.children
      let node := { node with children := below.nodes }
      if below.stopped then pure ⟨[node], true⟩
      else do
        let nodes ← liftHook (leaveAll visitors node)
        pure ⟨nodes, false⟩

/-- Runs a hook of every visitor on the tree, in order. -/
def onTree (hook : Visitor σ → Tree → HookM σ Tree) : List (Visitor σ) → Tree → HookM σ Tree
  | [], tree => pure tree
  | visitor :: rest, tree => do
    let tree ← hook visitor tree
    onTree hook rest tree

/-- Walks once over a tree with all visitors, which may add at most `levels` levels to it. -/
def traverseWithin (levels : Nat) (visitors : List (Visitor σ)) (tree : Tree) : WalkM σ Tree := do
  let tree ← liftHook (onTree Visitor.before visitors tree)
  let walked ← walkList (walkNode visitors (tree.depth + levels)) tree.statements
  liftHook (onTree Visitor.after visitors ⟨walked.nodes⟩)

/-- How many levels the visitors of one walk may add to a tree. -/
def growth : Nat := 10000

/-- Walks once over a tree with all visitors. -/
def traverse (visitors : List (Visitor σ)) (tree : Tree) : WalkM σ Tree :=
  traverseWithin growth visitors tree

end Traversal

end Retouch
