import Mathlib.Data.List.Perm.Basic
import Retouch.Proofs.Traversal.Rewriting

/-!
# Walks that only look

A visitor that never changes a node or a tree, keeps every node and never fails is an *observer*
(`Observes`). It may have any state, and entering a node it may answer as it likes.

* **Observers change nothing** (`valueOf?_traverseWithin_of_observes`): a walk with observers gives
  back the tree, even when it is stopped half-way, and whatever it skips.
* **Observers see everything.** If no observer skips or stops, then each node is entered by all of
  them in their order, then come its children, and then it is left by all of them in their order
  (`tour`). Such visitors follow the policy that keeps every node, so the calls are known from the
  rewriting by that policy (`visits_quiet`).

The calls to one of the visitors are a tour by that visitor alone, in which every node is entered
once, in document order, and left once (`traverse_observed`).
-/

namespace Retouch

namespace Traversal

variable {σ : Type} {visitors : List (Visitor σ)}

/-! ### Observers -/

/-- In every state, the visitor changes nothing, keeps every node, and does not fail. -/
structure Observes (visitor : Visitor σ) : Prop extends Unchanging visitor where
  enter : ∀ node own, ∃ descent, valueOf? (visitor.enter node own) = some (node, descent)
  leave : ∀ node own, valueOf? (visitor.leave node own) = some (node, .keep)

/-- A hook has the same value as a step of a walk. -/
theorem valueOf?_liftHook {α : Type} (action : HookM σ α) (own : σ) :
    valueOf? (liftHook action own) = valueOf? (action own) :=
  valueOf?_focus ..

/-- A node that observers enter stays as it is. -/
theorem valueOf?_enterAll_of_observes (h : ∀ visitor ∈ visitors, Observes visitor) (skipping : Bool)
    (node : Node) (own : σ) :
    ∃ descent, valueOf? (enterAll visitors skipping node own) = some (node, descent) := by
  induction visitors generalizing skipping own with
  | nil => exact ⟨_, rfl⟩
  | cons visitor rest ih =>
    have hrest := ih fun other hother => h other (List.mem_cons_of_mem _ hother)
    obtain ⟨descent, henter⟩ := (h visitor List.mem_cons_self).enter node own
    rw [enterAll, valueOf?_bind henter]
    cases descent with
    | into => exact hrest skipping _
    | skip => exact hrest true _
    | stop => exact ⟨.stop, rfl⟩

/-- A node that observers leave is kept as it is. -/
theorem valueOf?_leaveAll_of_observes (h : ∀ visitor ∈ visitors, Observes visitor) (node : Node)
    (own : σ) : valueOf? (leaveAll visitors node own) = some [node] := by
  induction visitors generalizing own with
  | nil => rfl
  | cons visitor rest ih =>
    rw [leaveAll, valueOf?_bind ((h visitor List.mem_cons_self).leave node own)]
    exact ih (fun other hother => h other (List.mem_cons_of_mem _ hother)) _

/-- Neighbours of which each is kept as it is, up to a stop. -/
theorem valueOf?_walkList_of_kept {walk : Node → WalkM σ Walked} {nodes : List Node}
    (h : ∀ node ∈ nodes, ∀ own, ∃ stopped, valueOf? (walk node own) = some ⟨[node], stopped⟩)
    (own : σ) : ∃ stopped, valueOf? (walkList walk nodes own) = some ⟨nodes, stopped⟩ := by
  induction nodes generalizing own with
  | nil => exact ⟨false, rfl⟩
  | cons node rest ih =>
    obtain ⟨stopped, hfirst⟩ := h node List.mem_cons_self own
    rw [walkList, valueOf?_bind hfirst]
    cases stopped with
    | true => exact ⟨true, rfl⟩
    | false =>
      obtain ⟨stopped, hrest⟩ := ih (fun other hother => h other (List.mem_cons_of_mem _ hother))
        (stateAfter (walk node own))
      refine ⟨stopped, ?_⟩
      simp only [Bool.false_eq_true, if_false]
      rw [valueOf?_bind hrest]
      rfl

/-- A walk of observers over a node keeps it as it is, stopped or not. -/
theorem valueOf?_walkNode_of_observes (h : ∀ visitor ∈ visitors, Observes visitor) {limit : Nat}
    {node : Node} (hdepth : node.depth ≤ limit) (own : σ) :
    ∃ stopped, valueOf? (walkNode visitors limit node own) = some ⟨[node], stopped⟩ := by
  induction limit generalizing node own with
  | zero => exact absurd hdepth node.not_depth_le_zero
  | succ limit ih =>
    have hleave : ∀ own, valueOf? ((do
        let nodes ← liftHook (leaveAll visitors node)
        pure ⟨nodes, false⟩ : WalkM σ Walked) own) = some ⟨[node], false⟩ := by
      intro own
      have hkept := valueOf?_leaveAll_of_observes h node own
      rw [valueOf?_bind ((valueOf?_liftHook _ own).trans hkept)]
      rfl
    obtain ⟨descent, henter⟩ := valueOf?_enterAll_of_observes h false node own
    rw [walkNode, valueOf?_bind ((valueOf?_liftHook _ own).trans henter)]
    cases descent with
    | stop => exact ⟨true, rfl⟩
    | skip => exact ⟨false, hleave _⟩
    | into =>
      obtain ⟨stopped, hbelow⟩ := valueOf?_walkList_of_kept
        (fun child hchild own => ih (Node.depth_le_of_child hdepth hchild) own)
        (stateAfter (liftHook (enterAll visitors false node) own))
      dsimp only
      rw [valueOf?_bind hbelow]
      cases stopped with
      | true =>
        refine ⟨true, ?_⟩
        simp only [if_true, Node.eta]
        rfl
      | false =>
        refine ⟨false, ?_⟩
        simp only [Bool.false_eq_true, if_false, Node.eta]
        exact hleave _

/-- Hooks that give back the tree hand it on from the first to the last. -/
theorem valueOf?_onTree_of_unchanging {hook : Visitor σ → Tree → HookM σ Tree} {tree : Tree}
    (h : ∀ visitor ∈ visitors, ∀ own, valueOf? (hook visitor tree own) = some tree) (own : σ) :
    valueOf? (onTree hook visitors tree own) = some tree := by
  induction visitors generalizing own with
  | nil => rfl
  | cons visitor rest ih =>
    rw [onTree, valueOf?_bind (h visitor List.mem_cons_self own)]
    exact ih (fun other hother => h other (List.mem_cons_of_mem _ hother)) _

/-- A walk with observers gives back the tree, whatever they answer when they enter a node. -/
theorem valueOf?_traverseWithin_of_observes (h : ∀ visitor ∈ visitors, Observes visitor)
    (levels : Nat) (tree : Tree) (own : σ) :
    valueOf? (traverseWithin levels visitors tree own) = some tree := by
  have hbefore := valueOf?_onTree_of_unchanging
    (fun visitor hvisitor => (h visitor hvisitor).before tree) own
  rw [traverseWithin, valueOf?_bind ((valueOf?_liftHook _ own).trans hbefore)]
  obtain ⟨stopped, hwalk⟩ := valueOf?_walkList_of_kept
    (fun node (hnode : node ∈ tree.statements) own =>
      valueOf?_walkNode_of_observes h (Tree.depth_le_of_statement hnode levels) own)
    (stateAfter (liftHook (onTree Visitor.before visitors tree) own))
  rw [valueOf?_bind hwalk]
  refine (valueOf?_liftHook _ _).trans ?_
  exact valueOf?_onTree_of_unchanging (fun visitor hvisitor => (h visitor hvisitor).after tree) _

/-! ### Tours -/

namespace Call

/-- The number of the visitor that was called. -/
def visitor : Call → Nat
  | before visitor _ _ => visitor
  | enter visitor _ _ => visitor
  | leave visitor _ _ => visitor
  | after visitor _ _ => visitor

/-- The node that was entered. -/
def entered? : Call → Option Node
  | enter _ node _ => some node
  | _ => none

/-- The node that was left. -/
def left? : Call → Option Node
  | leave _ node _ => some node
  | _ => none

end Call

mutual

/-- The calls to visitors that enter a node, go through its children, and leave it. -/
def tour (numbers : List Nat) : Node → List Call
  | node@{ children, .. } =>
    (numbers.map fun number => .enter number node (.ok (node, .into))) ++
      (tourAll numbers children ++
        numbers.map fun number => .leave number node (.ok (node, .keep)))

/-- The same for neighbours, one after the other. -/
def tourAll (numbers : List Nat) : List Node → List Call
  | [] => []
  | node :: rest => tour numbers node ++ tourAll numbers rest

end

/-- The calls to visitors that go through a whole tree. -/
def treeTour (numbers : List Nat) (tree : Tree) : List Call :=
  (numbers.map fun number => .before number tree (.ok tree)) ++
    (tourAll numbers tree.statements ++
      numbers.map fun number => .after number tree (.ok tree))

/-- Neighbours are toured one after the other. -/
theorem tourAll_eq_flatMap (numbers : List Nat) (nodes : List Node) :
    tourAll numbers nodes = nodes.flatMap (tour numbers) := by
  induction nodes with
  | nil => rfl
  | cons node rest ih => rw [tourAll, ih, List.flatMap_cons]

/-- A tour enters the node, tours its children, and leaves it. -/
theorem tour_eq (numbers : List Nat) (node : Node) :
    tour numbers node =
      (numbers.map fun number => .enter number node (.ok (node, .into))) ++
        (node.children.flatMap (tour numbers) ++
          numbers.map fun number => .leave number node (.ok (node, .keep))) := by
  obtain ⟨_, _, _, _, _, _⟩ := node
  rw [tour, tourAll_eq_flatMap]

/-! ### Tours as rewritings that change nothing -/

/-- The policy of a visitor that keeps every node and skips none. -/
def quiet : Policy where
  skips _ := false
  leave node := (node, .keep)

/-- Observers that skip nothing follow the quiet policy. -/
theorem forall₂_follows_quiet (h : ∀ visitor ∈ visitors, Observes visitor)
    (hinto : ∀ visitor ∈ visitors, ∀ node own,
      valueOf? (visitor.enter node own) = some (node, .into)) :
    List.Forall₂ Follows visitors (List.replicate visitors.length quiet) := by
  induction visitors with
  | nil => exact .nil
  | cons visitor rest ih =>
    have hfirst := h visitor List.mem_cons_self
    have henter := hinto visitor List.mem_cons_self
    apply List.Forall₂.cons
    · exact ⟨hfirst.toUnchanging, henter, hfirst.leave⟩
    · apply ih
      · exact fun other hother => h other (List.mem_cons_of_mem _ hother)
      · exact fun other hother => hinto other (List.mem_cons_of_mem _ hother)

/-- Quiet policies skip no node. -/
theorem skipped_quiet (count : Nat) (node : Node) :
    Policy.skipped (List.replicate count quiet) node = false := by
  simp [Policy.skipped, quiet]

/-- Quiet policies keep a node as it is. -/
theorem settle_quiet (count : Nat) (node : Node) :
    Policy.settle (List.replicate count quiet) node = [node] := by
  induction count with
  | zero => rfl
  | succ count ih => exact ih

/-- Quiet policies rewrite nothing. -/
theorem rewrite_quiet (count : Nat) (node : Node) :
    Policy.rewrite (List.replicate count quiet) node = [node] :=
  Policy.rewrite_of_settled fun below _ => settle_quiet count below

/-- Under quiet policies every visitor enters a node. -/
theorem entering_quiet (number count : Nat) (node : Node) :
    Policy.entering number (List.replicate count quiet) node =
      (List.range' number count).map fun visitor => .enter visitor node (.ok (node, .into)) := by
  induction count generalizing number with
  | zero => rfl
  | succ count ih =>
    rw [List.replicate_succ, Policy.entering, ih, List.range'_succ, List.map_cons]
    rfl

/-- Under quiet policies every visitor leaves a node. -/
theorem leaving_quiet (number count : Nat) (node : Node) :
    Policy.leaving number (List.replicate count quiet) node =
      (List.range' number count).map fun visitor => .leave visitor node (.ok (node, .keep)) := by
  induction count generalizing number with
  | zero => rfl
  | succ count ih =>
    rw [List.replicate_succ, List.range'_succ, List.map_cons, ← ih]
    rfl

/-- The calls of the rewriting that changes nothing are a tour. -/
theorem visits_quiet (count : Nat) (node : Node) :
    Policy.visits (List.replicate count quiet) node = tour (List.range' 0 count) node := by
  induction node using Node.childInduction with
  | step node ih =>
    have hchildren := Policy.flatMap_of_kept fun child (_ : child ∈ node.children) =>
      rewrite_quiet count child
    rw [Policy.visits_of_not_skipped (skipped_quiet count node), hchildren, Node.eta,
      entering_quiet, leaving_quiet, List.flatMap_congr ih, tour_eq]

/-- A walk with observers that neither skip nor stop is a tour of the whole tree. -/
theorem shows_traverseWithin_of_observes (h : ∀ visitor ∈ visitors, Observes visitor)
    (hinto : ∀ visitor ∈ visitors, ∀ node own,
      valueOf? (visitor.enter node own) = some (node, .into)) (levels : Nat) (tree : Tree) :
    Shows (traverseWithin levels (watchFrom 0 visitors) tree) (traverseWithin levels visitors tree)
      (Exactly tree (treeTour (List.range visitors.length) tree)) := by
  have hkept := Policy.flatMap_of_kept fun node (_ : node ∈ tree.statements) =>
    rewrite_quiet visitors.length node
  have hvisits := List.flatMap_congr fun node (_ : node ∈ tree.statements) =>
    visits_quiet visitors.length node
  have hwalk := shows_traverseWithin_of_follows (forall₂_follows_quiet h hinto) levels tree
  rw [hkept, hvisits, ← tourAll_eq_flatMap] at hwalk
  rw [List.range_eq_range']
  exact hwalk

/-! ### The part of one visitor -/

/-- Of one call by each visitor, one is by a given visitor. -/
theorem filter_map_call {numbers : List Nat} {number : Nat}
    (h : numbers.filter (· == number) = [number]) {call : Nat → Call}
    (hcall : ∀ other, (call other).visitor = other) :
    (numbers.map call).filter (fun made => made.visitor == number) = [number].map call := by
  rw [List.filter_map, ← h]
  refine congrArg _ (List.filter_congr fun other _ => ?_)
  rw [Function.comp_apply, hcall]

/-- The calls of one visitor in a tour of many are those of its own tour. -/
theorem filter_tour {numbers : List Nat} {number : Nat}
    (h : numbers.filter (· == number) = [number]) (node : Node) :
    (tour numbers node).filter (fun made => made.visitor == number) = tour [number] node := by
  induction node using Node.childInduction with
  | step node ih =>
    rw [tour_eq, tour_eq, List.filter_append, List.filter_append, List.filter_flatMap,
      List.flatMap_congr ih, filter_map_call h fun _ => rfl, filter_map_call h fun _ => rfl]

/-- The calls to one of the visitors of a tour are a tour by that visitor alone. -/
theorem filter_treeTour {number count : Nat} (h : number < count) (tree : Tree) :
    (treeTour (List.range count) tree).filter (fun made => made.visitor == number) =
      treeTour [number] tree := by
  have honce : (List.range count).filter (· == number) = [number] := by
    rw [List.filter_beq, List.count_eq_one_of_mem List.nodup_range (List.mem_range.mpr h)]
    rfl
  have hbelow := List.flatMap_congr fun node (_ : node ∈ tree.statements) => filter_tour honce node
  rw [treeTour, treeTour, List.filter_append, List.filter_append, tourAll_eq_flatMap,
    tourAll_eq_flatMap, List.filter_flatMap, hbelow, filter_map_call honce fun _ => rfl,
    filter_map_call honce fun _ => rfl]

/-- A tour enters the nodes in preorder. -/
theorem entered_tour (number : Nat) (node : Node) :
    (tour [number] node).filterMap Call.entered? = node.preorder := by
  induction node using Node.childInduction with
  | step node ih =>
    rw [tour_eq, List.filterMap_append, List.filterMap_append, List.filterMap_flatMap,
      List.flatMap_congr ih, Node.preorder_eq, Node.preorderList_eq_flatMap]
    exact congrArg (node :: ·) (List.append_nil _)

/-- One visitor enters every node once, in document order. -/
theorem entered_treeTour (number : Nat) (tree : Tree) :
    (treeTour [number] tree).filterMap Call.entered? = tree.nodes := by
  rw [treeTour, List.filterMap_append, List.filterMap_append, tourAll_eq_flatMap,
    List.filterMap_flatMap, List.flatMap_congr fun node _ => entered_tour number node, Tree.nodes,
    Node.preorderList_eq_flatMap]
  exact List.append_nil _

/-- A tour leaves the nodes that it enters, each as often. -/
theorem left_tour_perm (number : Nat) (node : Node) :
    ((tour [number] node).filterMap Call.left?).Perm node.preorder := by
  induction node using Node.childInduction with
  | step node ih =>
    rw [tour_eq, List.filterMap_append, List.filterMap_append, List.filterMap_flatMap,
      Node.preorder_eq, Node.preorderList_eq_flatMap]
    -- The node comes last here, and first in document order.
    exact (List.perm_append_singleton node _).trans (.cons node (List.Perm.flatMap_left _ ih))

/-- One visitor leaves every node once. -/
theorem left_treeTour_perm (number : Nat) (tree : Tree) :
    ((treeTour [number] tree).filterMap Call.left?).Perm tree.nodes := by
  rw [treeTour, List.filterMap_append, List.filterMap_append, tourAll_eq_flatMap,
    List.filterMap_flatMap, Tree.nodes, Node.preorderList_eq_flatMap]
  have hafter := List.append_nil
    (tree.statements.flatMap fun node => (tour [number] node).filterMap Call.left?)
  refine (List.Perm.of_eq hafter).trans ?_
  exact List.Perm.flatMap_left _ fun node _ => left_tour_perm number node

/-- Observers change nothing, whatever they answer when they enter a node. If they always go on, the
calls to them are a tour of the whole tree by all of them, and so for each of them a tour by that
one alone, on which it enters every node once, in document order, and leaves every node once. -/
theorem traverse_observed (h : ∀ visitor ∈ visitors, Observes visitor) (tree : Tree) (own : σ) :
    valueOf? (traverse visitors tree own) = some tree ∧
      ((∀ visitor ∈ visitors, ∀ node own,
          valueOf? (visitor.enter node own) = some (node, .into)) →
        ∃ left calls, traverse visitors tree own = .ok tree left ∧
          traverse (watchFrom 0 visitors) tree ⟨own, []⟩ = .ok tree ⟨left, calls⟩ ∧
          calls = treeTour (List.range visitors.length) tree ∧
          ∀ number < visitors.length,
            let ones := calls.filter fun made => made.visitor == number
            ones = treeTour [number] tree ∧ ones.filterMap Call.entered? = tree.nodes ∧
              (ones.filterMap Call.left?).Perm tree.nodes) := by
  refine ⟨valueOf?_traverseWithin_of_observes h growth tree own, fun hinto => ?_⟩
  obtain ⟨left, hplain, hwatched⟩ :=
    (shows_traverseWithin_of_observes h hinto growth tree).run_exactly own
  refine ⟨left, _, hplain, hwatched, rfl, ?_⟩
  intro number hnumber
  rw [filter_treeTour hnumber]
  exact ⟨rfl, entered_treeTour number tree, left_treeTour_perm number tree⟩

/-! Observers that keep the nodes they enter, and stop when they have a given number of them. -/

/-- Notes the nodes that it enters, and stops once it has noted so many. -/
def noteUpTo (count : Nat) : Visitor (List Node) where
  enter node := do
    let nodes ← get
    set (nodes ++ [node])
    pure (node, if nodes.length = count then .stop else .into)

/-- Notes the nodes that it enters, without an end. -/
def noteAll : Visitor (List Node) where
  enter node := do
    modify (· ++ [node])
    pure (node, .into)

/-- A visitor that notes nodes up to a number is an observer. -/
theorem observes_noteUpTo (count : Nat) : Observes (noteUpTo count) where
  before _ _ := rfl
  enter _ own := ⟨if own.length = count then .stop else .into, rfl⟩
  leave _ _ := rfl
  after _ _ := rfl

/-- A visitor that notes all nodes is an observer. -/
theorem observes_noteAll : Observes noteAll where
  before _ _ := rfl
  enter _ _ := ⟨.into, rfl⟩
  leave _ _ := rfl
  after _ _ := rfl

/-- The tree has six nodes, so two observers that do not stop are called 28 times. -/
theorem traverse_observed_commented :
    valueOf? (traverse [noteAll, noteUpTo 2] commented []) = some commented ∧
      ∃ left calls, traverse [noteAll, noteAll] commented [] = .ok commented left ∧
        traverse (watchFrom 0 [noteAll, noteAll]) commented ⟨[], []⟩ =
          .ok commented ⟨left, calls⟩ ∧ calls.length = 28 := by
  have hstops : ∀ visitor ∈ [noteAll, noteUpTo 2], Observes visitor := by
    intro visitor hvisitor
    rcases List.mem_pair.mp hvisitor with rfl | rfl
    · exact observes_noteAll
    · exact observes_noteUpTo 2
  have hgoes : ∀ visitor ∈ [noteAll, noteAll], Observes visitor := by
    intro visitor hvisitor
    rcases List.mem_pair.mp hvisitor with rfl | rfl <;> exact observes_noteAll
  refine ⟨(traverse_observed hstops commented []).1, ?_⟩
  obtain ⟨left, calls, hplain, hwatched, rfl, -⟩ :=
    (traverse_observed hgoes commented []).2 (by
      intro visitor hvisitor node own
      rcases List.mem_pair.mp hvisitor with rfl | rfl <;> rfl)
  exact ⟨left, _, hplain, hwatched, by decide⟩

end Traversal

end Retouch
