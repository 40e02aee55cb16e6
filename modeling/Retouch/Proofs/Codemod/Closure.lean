import Retouch.Codemod.Basic
import Retouch.Proofs.Actions

/-!
# What codemods have from their hooks

A codemod does nothing but call hooks: its own, and those of the visitors of its plan. So if all of
these belong to a class of actions (`ActionClass`), the codemod does.

* **Walks** (`holds_traverse`): a walk belongs to the class if the hooks of all its visitors do.
* **Codemods** (`Prepared.holds_transform`): so does a codemod that is set up, if in addition its
  hooks before and after the steps do.

The proofs go once through every definition that a walk is made of, by induction on the list of
visitors, on the list of nodes and on the limit of the depth.
-/

namespace Retouch

variable {σ : Type} (actions : ActionClass σ)

/-- All hooks of the visitor belong to the class. -/
structure Visitor.Within (visitor : Visitor σ) : Prop where
  before : ∀ tree, actions.Holds (visitor.before tree)
  enter : ∀ node, actions.Holds (visitor.enter node)
  leave : ∀ node, actions.Holds (visitor.leave node)
  after : ∀ tree, actions.Holds (visitor.after tree)

namespace Traversal

variable {visitors : List (Visitor σ)}

/-- Visitors that enter a node stay within the class. -/
theorem holds_enterAll (h : ∀ visitor ∈ visitors, visitor.Within actions) (skipping : Bool)
    (node : Node) : actions.Holds (enterAll visitors skipping node) := by
  induction visitors generalizing skipping node with
  | nil => exact actions.pure _
  | cons visitor rest ih =>
    have hrest := ih fun other hother => h other (List.mem_cons_of_mem _ hother)
    refine actions.bind ((h visitor List.mem_cons_self).enter node) ?_
    rintro ⟨node, descent⟩
    cases descent with
    | into => exact hrest skipping node
    | skip => exact hrest true node
    | stop => exact actions.pure _

/-- Visitors that leave a node stay within the class. -/
theorem holds_leaveAll (h : ∀ visitor ∈ visitors, visitor.Within actions) (node : Node) :
    actions.Holds (leaveAll visitors node) := by
  induction visitors generalizing node with
  | nil => exact actions.pure _
  | cons visitor rest ih =>
    refine actions.bind ((h visitor List.mem_cons_self).leave node) ?_
    rintro ⟨node, verdict⟩
    cases verdict with
    | keep => exact ih (fun other hother => h other (List.mem_cons_of_mem _ hother)) node
    | remove => exact actions.pure _
    | replace nodes => exact actions.pure _

/-- A walk over neighbours stays within the class if the walk over each node does. -/
theorem holds_walkList {walk : Node → WalkM σ Walked} (h : ∀ node, actions.Holds (walk node))
    (nodes : List Node) : actions.Holds (walkList walk nodes) := by
  induction nodes with
  | nil => exact actions.pure _
  | cons node rest ih =>
    refine actions.bind (h node) fun first => ?_
    split
    · exact actions.pure _
    · exact actions.bind ih fun others => actions.pure _

/-- A walk over a node stays within the class, whatever its limit is. -/
theorem holds_walkNode (h : ∀ visitor ∈ visitors, visitor.Within actions) (limit : Nat)
    (node : Node) : actions.Holds (walkNode visitors limit node) := by
  induction limit generalizing node with
  | zero => exact actions.throw _
  | succ limit ih =>
    have hleave : ∀ node, actions.Holds (do
        let nodes ← liftHook (leaveAll visitors node)
        pure ⟨nodes, false⟩ : WalkM σ Walked) :=
      fun node => actions.bind (actions.report _ (holds_leaveAll actions h node))
        fun nodes => actions.pure _
    refine actions.bind (actions.report _ (holds_enterAll actions h false node)) ?_
    rintro ⟨node, descent⟩
    cases descent with
    | stop => exact actions.pure _
    | skip => exact hleave node
    | into =>
      refine actions.bind (holds_walkList actions ih node.children) fun below => ?_
      simp only
      split
      · exact actions.pure _
      · exact hleave _

/-- A hook on trees stays within the class if that of each visitor does. -/
theorem holds_onTree {hook : Visitor σ → Tree → HookM σ Tree}
    (h : ∀ visitor ∈ visitors, ∀ tree, actions.Holds (hook visitor tree)) (tree : Tree) :
    actions.Holds (onTree hook visitors tree) := by
  induction visitors generalizing tree with
  | nil => exact actions.pure _
  | cons visitor rest ih =>
    exact actions.bind (h visitor List.mem_cons_self tree) fun tree =>
      ih (fun other hother => h other (List.mem_cons_of_mem _ hother)) tree

/-- A walk belongs to the class if the hooks of all its visitors do. -/
theorem holds_traverse (h : ∀ visitor ∈ visitors, visitor.Within actions) (tree : Tree) :
    actions.Holds (traverse visitors tree) := by
  have hbefore := holds_onTree actions (fun visitor hmem => (h visitor hmem).before)
  have hafter := holds_onTree actions (fun visitor hmem => (h visitor hmem).after)
  refine actions.bind (actions.report _ (hbefore tree)) fun tree => ?_
  refine actions.bind (holds_walkList actions (holds_walkNode actions h _) _) fun walked => ?_
  exact actions.report _ (hafter _)

end Traversal

namespace Prepared

/-- The steps of a plan belong to the class if the hooks of all visitors do. -/
theorem holds_runSteps {plan : Plan σ} {actions : ActionClass (HookState σ)}
    (h : ∀ visitors ∈ plan, ∀ visitor ∈ visitors, visitor.Within actions) (tree : Tree) :
    actions.Holds (runSteps plan tree) := by
  induction plan generalizing tree with
  | nil => exact actions.pure _
  | cons visitors steps ih =>
    have hwalk := Traversal.holds_traverse actions (h visitors List.mem_cons_self) tree
    refine actions.bind (actions.report _ hwalk) fun tree => ?_
    exact ih (fun other hother => h other (List.mem_cons_of_mem _ hother)) tree

/-- A codemod belongs to the class if its hooks and those of all visitors do. -/
theorem holds_transform {prepared : Prepared σ} {actions : ActionClass (HookState σ)}
    (hbefore : ∀ context tree, actions.Holds (prepared.codemod.before context tree))
    (hplan : ∀ visitors ∈ prepared.plan, ∀ visitor ∈ visitors, visitor.Within actions)
    (hafter : ∀ context tree, actions.Holds (prepared.codemod.after context tree))
    (context : Context) (tree : Tree) : actions.Holds (prepared.transform context tree) := by
  refine actions.bind (hbefore context tree) fun tree => ?_
  exact actions.bind (holds_runSteps hplan tree) fun tree => hafter context tree

end Prepared

end Retouch
