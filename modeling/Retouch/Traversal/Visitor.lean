import Retouch.Failure
import Retouch.Tree.Node

/-!
# Visitors

A visitor takes part in a walk over a tree through four hooks. Entering a node it may change the
node and decides how the walk goes on; leaving a node it may change the node again and decides what
stays in its place; before and after the walk it sees the whole tree. All hooks share a state of
type `σ` and may fail.
-/

namespace Retouch

/-- How a walk goes on from a node that was entered. -/
inductive Descent where
  /-- To the children. -/
  | into
  /-- Past the children. -/
  | skip
  /-- Not at all: the walk ends here. -/
  | stop
deriving DecidableEq, Repr, Inhabited

/-- What stays in the place of a node that was left. -/
inductive Verdict where
  /-- The node itself. -/
  | keep
  /-- Nothing. -/
  | remove
  /-- Other nodes. -/
  | replace (nodes : List Node)
deriving DecidableEq, Repr, Inhabited

/-- The hooks of one visitor. Each hook that is not given does nothing. -/
structure Visitor (σ : Type) where
  before : Tree → HookM σ Tree := pure
  enter : Node → HookM σ (Node × Descent) := fun node => pure (node, .into)
  leave : Node → HookM σ (Node × Verdict) := fun node => pure (node, .keep)
  after : Tree → HookM σ Tree := pure

/-- The visitor as one whose state is a part of a larger state. -/
def Visitor.focus {σ τ : Type} (get : σ → τ) (put : τ → σ → σ) (visitor : Visitor τ) :
    Visitor σ where
  before tree := Retouch.focus get put id (visitor.before tree)
  enter node := Retouch.focus get put id (visitor.enter node)
  leave node := Retouch.focus get put id (visitor.leave node)
  after tree := Retouch.focus get put id (visitor.after tree)

end Retouch
