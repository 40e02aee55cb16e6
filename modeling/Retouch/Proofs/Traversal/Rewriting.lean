import Mathlib.Data.List.Forall2
import Retouch.Proofs.Traversal.Watching
import Retouch.Proofs.Tree.Reading

/-!
# Walks as rewriting

A visitor may keep a state, but what it answers to a node often depends on the node alone. Its
answers are then a *policy*: whether it skips the children of a node that it enters, and what it
makes of a node that it leaves (`Policy`, `Follows`).

A walk with such visitors is a rewriting of the tree from the leaves up (`Policy.rewrite`). A node
is settled by the policies in their order, the first that does not keep it decides
(`Policy.settle`), and unless one of them skips them, its children are rewritten before. The walk
computes exactly this (`traverse_eq_rewrite`), and its calls are those of the rewriting
(`Policy.visits`): nothing that a policy puts in the place of a node is visited, and no visitor is
called for a node that an earlier one did not keep.

The walk goes no deeper than the tree, since entering changes nothing, so its limit is never met.
-/

namespace Retouch

/-! ### Nodes and their depth -/

namespace Node

/-- A node is made of its fields. -/
theorem eta (node : Node) :
    Node.mk node.kind node.field node.text node.children node.origin node.span = node := by
  cases node
  rfl

/-- A node is one level deeper than its children. -/
theorem depth_eq (node : Node) : node.depth = depthList node.children + 1 := by
  cases node
  rfl

/-- No neighbour is deeper than all of them. -/
theorem depth_le_depthList {node : Node} {nodes : List Node} (h : node ∈ nodes) :
    node.depth ≤ depthList nodes := by
  induction nodes with
  | nil => exact absurd h List.not_mem_nil
  | cons first rest ih =>
    rw [depthList]
    rcases List.mem_cons.mp h with rfl | hrest
    · exact Nat.le_max_left _ _
    · exact Nat.le_trans (ih hrest) (Nat.le_max_right _ _)

/-- A limit that is enough for a node is enough for its children with one level less. -/
theorem depth_le_of_child {node child : Node} {limit : Nat} (h : node.depth ≤ limit + 1)
    (hchild : child ∈ node.children) : child.depth ≤ limit := by
  rw [depth_eq] at h
  have hle := depth_le_depthList hchild
  omega

/-- Every node has a level. -/
theorem not_depth_le_zero (node : Node) : ¬ node.depth ≤ 0 := by
  rw [depth_eq]
  omega

end Node

/-- No statement is deeper than its tree. -/
theorem Tree.depth_le_of_statement {tree : Tree} {node : Node} (h : node ∈ tree.statements)
    (levels : Nat) : node.depth ≤ tree.depth + levels :=
  Nat.le_trans (Node.depth_le_depthList h) (Nat.le_add_right _ levels)

namespace Traversal

variable {σ : Type}

/-! ### Policies -/

/-- What a visitor answers, when that depends on the node alone. -/
structure Policy where
  /-- Whether the children of a node are to be skipped. -/
  skips : Node → Bool
  /-- What becomes of a node that is left, and whether it is kept. -/
  leave : Node → Node × Verdict

/-- In every state, the visitor answers to nodes by the policy, and its hooks on trees give back the
tree that they get. -/
structure Follows (visitor : Visitor σ) (policy : Policy) : Prop extends Unchanging visitor where
  enter : ∀ node own, valueOf? (visitor.enter node own) =
    some (node, if policy.skips node then .skip else .into)
  leave : ∀ node own, valueOf? (visitor.leave node own) = some (policy.leave node)

/-- A visitor that has its state in a larger one follows the same policy. -/
theorem Follows.focus {τ : Type} {get : σ → τ} {put : τ → σ → σ} {visitor : Visitor τ}
    {policy : Policy} (h : Follows visitor policy) : Follows (visitor.focus get put) policy where
  before tree own := (valueOf?_focus get put id _ own).trans (h.before tree (get own))
  enter node own := (valueOf?_focus get put id _ own).trans (h.enter node (get own))
  leave node own := (valueOf?_focus get put id _ own).trans (h.leave node (get own))
  after tree own := (valueOf?_focus get put id _ own).trans (h.after tree (get own))

namespace Policy

/-- Whether one of the policies skips the children of a node. -/
def skipped (policies : List Policy) (node : Node) : Bool :=
  policies.any fun policy => policy.skips node

/-- What stays in the place of a node that the policies leave one after the other, each as the one
before it made it. -/
def settle : List Policy → Node → List Node
  | [], node => [node]
  | policy :: rest, node =>
    match policy.leave node with
    | (changed, .keep) => settle rest changed
    | (_, .remove) => []
    | (_, .replace nodes) => nodes

mutual

/-- The rewriting of a node: its children first, unless they are skipped, and then the node. -/
def rewrite (policies : List Policy) : Node → List Node
  | node@{ children, .. } =>
    if skipped policies node then settle policies node
    else settle policies { node with children := rewriteAll policies children }

/-- The rewriting of neighbours, each on its own. -/
def rewriteAll (policies : List Policy) : List Node → List Node
  | [] => []
  | node :: rest => rewrite policies node ++ rewriteAll policies rest

end

/-! The calls that are made on the way. -/

/-- The calls to enter a node, numbered from a given number on. -/
def entering : Nat → List Policy → Node → List Call
  | _, [], _ => []
  | number, policy :: rest, node =>
    .enter number node (.ok (node, if policy.skips node then .skip else .into)) ::
      entering (number + 1) rest node

/-- The calls to leave a node, up to the first policy that does not keep it. -/
def leaving : Nat → List Policy → Node → List Call
  | _, [], _ => []
  | number, policy :: rest, node =>
    .leave number node (.ok (policy.leave node)) ::
      match policy.leave node with
      | (changed, .keep) => leaving (number + 1) rest changed
      | _ => []

mutual

/-- The calls of the rewriting of a node. -/
def visits (policies : List Policy) : Node → List Call
  | node@{ children, .. } =>
    if skipped policies node then entering 0 policies node ++ leaving 0 policies node
    else
      entering 0 policies node ++ (visitsAll policies children ++
        leaving 0 policies { node with children := rewriteAll policies children })

/-- The calls of the rewriting of neighbours. -/
def visitsAll (policies : List Policy) : List Node → List Call
  | [] => []
  | node :: rest => visits policies node ++ visitsAll policies rest

end

/-- Neighbours are rewritten one after the other. -/
theorem rewriteAll_eq_flatMap (policies : List Policy) (nodes : List Node) :
    rewriteAll policies nodes = nodes.flatMap (rewrite policies) := by
  induction nodes with
  | nil => rfl
  | cons node rest ih => rw [rewriteAll, ih, List.flatMap_cons]

/-- Neighbours are visited one after the other. -/
theorem visitsAll_eq_flatMap (policies : List Policy) (nodes : List Node) :
    visitsAll policies nodes = nodes.flatMap (visits policies) := by
  induction nodes with
  | nil => rfl
  | cons node rest ih => rw [visitsAll, ih, List.flatMap_cons]

/-- A skipped node is left as it was entered, with the children that it had. -/
theorem rewrite_of_skipped {policies : List Policy} {node : Node}
    (h : skipped policies node = true) : rewrite policies node = settle policies node := by
  obtain ⟨_, _, _, _, _, _⟩ := node
  rw [rewrite, if_pos h]

/-- A node that is not skipped is left with its children rewritten. -/
theorem rewrite_of_not_skipped {policies : List Policy} {node : Node}
    (h : skipped policies node = false) :
    rewrite policies node =
      settle policies { node with children := node.children.flatMap (rewrite policies) } := by
  obtain ⟨_, _, _, _, _, _⟩ := node
  rw [rewrite, h, rewriteAll_eq_flatMap]
  rfl

/-- A skipped node is entered and left, with no call below it. -/
theorem visits_of_skipped {policies : List Policy} {node : Node}
    (h : skipped policies node = true) :
    visits policies node = entering 0 policies node ++ leaving 0 policies node := by
  obtain ⟨_, _, _, _, _, _⟩ := node
  rw [visits, if_pos h]

/-- A node that is not skipped is entered, then its children are visited, and then it is left with
what came of them. -/
theorem visits_of_not_skipped {policies : List Policy} {node : Node}
    (h : skipped policies node = false) :
    visits policies node = entering 0 policies node ++ (node.children.flatMap (visits policies) ++
      leaving 0 policies { node with children := node.children.flatMap (rewrite policies) }) := by
  obtain ⟨_, _, _, _, _, _⟩ := node
  rw [visits, h, rewriteAll_eq_flatMap, visitsAll_eq_flatMap]
  rfl

/-- Neighbours that are all kept stay as they are. -/
theorem flatMap_of_kept {rewrite : Node → List Node} {nodes : List Node}
    (h : ∀ node ∈ nodes, rewrite node = [node]) : nodes.flatMap rewrite = nodes := by
  rw [List.flatMap_congr h]
  exact List.flatMap_singleton' nodes

/-- A node stays as it is if it and all below it are settled as they are, whatever is skipped. -/
theorem rewrite_of_settled {policies : List Policy} {node : Node}
    (h : ∀ below ∈ node.preorder, settle policies below = [below]) :
    rewrite policies node = [node] := by
  induction node using Node.childInduction with
  | step node ih =>
    have hnode := h node node.mem_preorder_self
    cases hskipped : skipped policies node with
    | true => rw [rewrite_of_skipped hskipped, hnode]
    | false =>
      have hchildren := flatMap_of_kept fun child hchild => ih child hchild fun below hbelow => by
        apply h
        rw [Node.preorder_eq, Node.preorderList_eq_flatMap]
        exact List.mem_cons_of_mem _ (List.mem_flatMap.mpr ⟨child, hchild, hbelow⟩)
      rw [rewrite_of_not_skipped hskipped, hchildren, Node.eta, hnode]

end Policy

open Policy

/-! ### Walks with visitors that follow policies -/

variable {visitors : List (Visitor σ)} {policies : List Policy}

/-- Visitors that follow policies make the calls to enter a node, and go below it unless one of them
skips it. -/
theorem shows_enterAll_of_follows (h : List.Forall₂ Follows visitors policies) (number : Nat)
    (skipping : Bool) (node : Node) :
    Shows (enterAll (watchFrom number visitors) skipping node) (enterAll visitors skipping node)
      (Exactly (node, if skipping || skipped policies node then .skip else .into)
        (entering number policies node)) := by
  induction h generalizing number skipping with
  | nil =>
    simp only [skipped, List.any_nil, Bool.or_false]
    exact .pure_exactly _
  | @cons visitor policy visitors policies hfirst _ ih =>
    have henter := shows_watch_of_value (hfirst.enter node) (.enter number node)
    refine henter.bind_exactly ?_
    cases hskips : policy.skips node with
    | false =>
      simp only [skipped, List.any_cons, hskips, Bool.false_or]
      exact ih (number + 1) skipping
    | true =>
      have hrest := ih (number + 1) true
      simp only [skipped, List.any_cons, hskips, Bool.true_or, Bool.or_true] at hrest ⊢
      exact hrest

/-- Visitors that follow policies make the calls to leave a node, and what stays in its place is
what the policies say. -/
theorem shows_leaveAll_of_follows (h : List.Forall₂ Follows visitors policies) (number : Nat)
    (node : Node) :
    Shows (leaveAll (watchFrom number visitors) node) (leaveAll visitors node)
      (Exactly (settle policies node) (leaving number policies node)) := by
  induction h generalizing number node with
  | nil => exact .pure_exactly _
  | @cons visitor policy visitors policies hfirst _ ih =>
    have hleave := shows_watch_of_value (hfirst.leave node) (.leave number node)
    rw [settle, leaving]
    refine hleave.bind_exactly ?_
    rcases policy.leave node with ⟨changed, verdict⟩
    cases verdict with
    | keep => exact ih (number + 1) changed
    | remove => exact .pure_exactly _
    | replace nodes => exact .pure_exactly _

/-- Neighbours of which each is rewritten without a stop. -/
theorem shows_walkList_of_rewrite {walk : Node → WalkM (Noted σ) Walked}
    {plain : Node → WalkM σ Walked} {nodes : List Node}
    (h : ∀ node ∈ nodes, Shows (walk node) (plain node)
      (Exactly ⟨rewrite policies node, false⟩ (visits policies node))) :
    Shows (walkList walk nodes) (walkList plain nodes)
      (Exactly ⟨nodes.flatMap (rewrite policies), false⟩ (nodes.flatMap (visits policies))) := by
  induction nodes with
  | nil => exact .pure_exactly _
  | cons node rest ih =>
    have hrest := ih fun other hother => h other (List.mem_cons_of_mem _ hother)
    rw [List.flatMap_cons, List.flatMap_cons]
    refine (h node List.mem_cons_self).bind_exactly ?_
    exact hrest.map_exactly fun others =>
      Walked.mk (rewrite policies node ++ others.nodes) others.stopped

/-- A walk that may go as deep as the node makes the visits of the policies and rewrites the node as
they say. -/
theorem shows_walkNode_of_follows (h : List.Forall₂ Follows visitors policies) {limit : Nat}
    {node : Node} (hdepth : node.depth ≤ limit) :
    Shows (walkNode (watchFrom 0 visitors) limit node) (walkNode visitors limit node)
      (Exactly ⟨rewrite policies node, false⟩ (visits policies node)) := by
  induction limit generalizing node with
  | zero => exact absurd hdepth node.not_depth_le_zero
  | succ limit ih =>
    -- entering and leaving are the same for skipped nodes and others
    have henter := (shows_enterAll_of_follows h 0 false node).liftHook_exactly
    have hleave : ∀ left, Shows
        (do
          let nodes ← liftHook (leaveAll (watchFrom 0 visitors) left)
          pure ⟨nodes, false⟩)
        (do
          let nodes ← liftHook (leaveAll visitors left)
          pure ⟨nodes, false⟩)
        (Exactly (⟨settle policies left, false⟩ : Walked) (leaving 0 policies left)) := by
      intro left
      exact (shows_leaveAll_of_follows h 0 left).liftHook_exactly.map_exactly fun nodes =>
        Walked.mk nodes false
    rw [Bool.false_or] at henter
    cases hskipped : skipped policies node with
    | true =>
      rw [rewrite_of_skipped hskipped, visits_of_skipped hskipped]
      rw [hskipped] at henter
      exact henter.bind_exactly (hleave node)
    | false =>
      rw [rewrite_of_not_skipped hskipped, visits_of_not_skipped hskipped]
      rw [hskipped] at henter
      refine henter.bind_exactly ?_
      have hbelow := shows_walkList_of_rewrite fun child hchild =>
        ih (Node.depth_le_of_child hdepth hchild)
      exact hbelow.bind_exactly (hleave _)

/-- The tree that a walk with visitors that follow policies gives, and the calls that it makes. -/
theorem shows_traverseWithin_of_follows (h : List.Forall₂ Follows visitors policies) (levels : Nat)
    (tree : Tree) :
    Shows (traverseWithin levels (watchFrom 0 visitors) tree) (traverseWithin levels visitors tree)
      (Exactly ⟨tree.statements.flatMap (rewrite policies)⟩
        (idleCalls .before 0 visitors.length tree ++ (tree.statements.flatMap (visits policies) ++
          idleCalls .after 0 visitors.length ⟨tree.statements.flatMap (rewrite policies)⟩))) := by
  have hboth := h.imp fun visitor policy hfollows => And.intro hfollows.toUnchanging hfollows
  have hunchanging := ((List.forall₂_and_left _ _).mp hboth).1
  have hwalk := shows_walkList_of_rewrite fun node (hnode : node ∈ tree.statements) =>
    shows_walkNode_of_follows h (Tree.depth_le_of_statement hnode levels)
  exact shows_traverseWithin_of_unchanging hunchanging levels hwalk

/-- A walk with visitors whose answers depend on the node alone, and which neither fail nor stop nor
change a node when they enter it, rewrites the tree from the leaves up. It calls each visitor for a
node once when the node is entered, and then, after the children of the node, once when it is left,
as long as the visitors before it keep the node. -/
theorem traverse_eq_rewrite (h : List.Forall₂ Follows visitors policies) (tree : Tree) (own : σ) :
    let rewritten : Tree := ⟨tree.statements.flatMap (rewrite policies)⟩
    ∃ left, traverse visitors tree own = .ok rewritten left ∧
      traverse (watchFrom 0 visitors) tree ⟨own, []⟩ = .ok rewritten ⟨left,
        idleCalls .before 0 visitors.length tree ++ (tree.statements.flatMap (visits policies) ++
          idleCalls .after 0 visitors.length rewritten)⟩ :=
  (shows_traverseWithin_of_follows h growth tree).run_exactly own

/-! A visitor that counts the nodes that it leaves and unpacks blocks, and one that drops comments,
marks all other nodes, and leaves functions alone. -/

/-- Unpacks blocks. -/
def unpacking : Policy where
  skips _ := false
  leave node := (node, if node.kind = "block" then .replace node.children else .keep)

/-- Drops comments and marks other nodes. -/
def marking : Policy where
  skips node := node.kind = "function"
  leave node :=
    if node.kind = "comment" then (node, .remove) else ({ node with field := some "seen" }, .keep)

/-- A visitor for a policy, which counts the nodes that it leaves. -/
def counting (policy : Policy) : Visitor Nat where
  enter node := pure (node, if policy.skips node then .skip else .into)
  leave node := do
    modify (· + 1)
    pure (policy.leave node)

/-- The counting visitor follows its policy. -/
theorem follows_counting (policy : Policy) : Follows (counting policy) policy where
  before _ _ := rfl
  enter _ _ := rfl
  leave _ _ := rfl
  after _ _ := rfl

/-- A block with a comment, a function with a comment, and a block without anything. -/
def commented : Tree :=
  ⟨[.branch "block" [.leaf "comment" "# one", .leaf "name" "f"],
    .branch "function" [.leaf "comment" "# two"], .branch "block" []]⟩

/-- The blocks are replaced by what they hold, the comments outside of functions are removed, and
what is left is marked. -/
theorem traverse_eq_rewrite_commented :
    List.Forall₂ Follows [counting unpacking, counting marking] [unpacking, marking] ∧
      ∃ left, traverse [counting unpacking, counting marking] commented 0 = .ok
        ⟨[(Node.leaf "name" "f").withField "seen",
          (Node.branch "function" [.leaf "comment" "# two"]).withField "seen"]⟩ left := by
  have h : List.Forall₂ Follows [counting unpacking, counting marking] [unpacking, marking] :=
    .cons (follows_counting unpacking) (.cons (follows_counting marking) .nil)
  obtain ⟨left, hrun, -⟩ := traverse_eq_rewrite h commented 0
  exact ⟨h, left, hrun⟩

end Traversal

end Retouch
