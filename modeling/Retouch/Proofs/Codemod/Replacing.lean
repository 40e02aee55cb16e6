import Retouch.Proofs.Codemod.Literals

/-!
# Replacing string literals, walk by walk

What one walk with the visitor that replaces literals does to a tree, and to the number of literals
that the visitor keeps.

* **The tree** (`Replaced`): from the top down, a literal gives way to a fresh leaf in its place and
  role, and every other node stays as it is, except that the same happens to its children. What is
  inside of a literal is gone with it.
* **The number** (`walkNode_replacer`): it goes up by one for each literal that is not inside of
  another one.
* **Walking again.** The leaf that takes the place of a literal is a literal itself. A tree that was
  walked over has as many outermost literals as before (`Replaced.forall₂_outermost`), all of them
  such leaves, and each is replaced by itself (`Replaced.rewrite_eq`): further walks change nothing,
  but count the same literals again.
-/

namespace Retouch

open Traversal

/-- Walks over a tree a number of times, each time over what the walk before made of it. -/
def Traversal.traverseTimes {σ : Type} (visitors : List (Visitor σ)) : Nat → Tree → WalkM σ Tree
  | 0, tree => pure tree
  | times + 1, tree => do
    let tree ← Traversal.traverse visitors tree
    traverseTimes visitors times tree

namespace StringLiterals

/-! ### What takes the place of what -/

/-- The leaf that takes the place of a literal: it has the role and the range of the literal, and no
identity. -/
def replacement (value : String) (literal : Node) : Node :=
  { kind := "encapsed_string", field := literal.field, text := some (doubleQuoted value)
    children := [], origin := none, span := literal.span }

/-- What becomes of a node: a literal is replaced as a whole, and in any other node the literals
below it are. -/
inductive Replaced (value : String) : (node left : Node) → Prop
  | literal {node : Node} (hliteral : isLiteral node = true) :
      Replaced value node (replacement value node)
  | other {node left : Node} (hliteral : isLiteral node = false) (hkind : left.kind = node.kind)
      (hfield : left.field = node.field) (htext : left.text = node.text)
      (horigin : left.origin = node.origin) (hspan : left.span = node.span)
      (hchildren : List.Forall₂ (Replaced value) node.children left.children) :
      Replaced value node left

/-- What takes the place of a literal is a literal. -/
theorem isLiteral_replacement (value : String) (literal : Node) :
    isLiteral (replacement value literal) = true :=
  rfl

/-- Whether a node is a literal is a matter of its kind. -/
theorem isLiteral_of_kind {node left : Node} (h : left.kind = node.kind) :
    isLiteral left = isLiteral node := by
  rw [isLiteral, h, ← isLiteral]

/-- The rewriting of the walk is the replacement. -/
theorem replaced_rewrite (value : String) (node : Node) :
    ∃ left, Policy.rewrite [policy value] node = [left] ∧ Replaced value node left := by
  induction node using Node.childInduction with
  | step node ih =>
    cases hliteral : isLiteral node with
    | true => exact ⟨_, rewrite_of_literal value hliteral, .literal hliteral⟩
    | false =>
      exact ⟨_, rewrite_of_not_literal value hliteral,
        .other hliteral rfl rfl rfl rfl rfl (forall₂_flatMap_of_single ih)⟩

/-! ### One walk -/

/-- Entering a node changes nothing and counts nothing, and it skips the children of a literal. -/
theorem enterAll_replacer (value : String) (node : Node) (count : Nat) :
    liftHook (enterAll [replacer value] false node) count =
      .ok (node, if isLiteral node then .skip else .into) count := by
  cases hliteral : isLiteral node <;>
  · simp only [liftHook, focus, enterAll, replacer, hliteral]
    rfl

/-- Leaving a literal replaces it and counts one. -/
theorem leaveAll_replacer_of_literal (value : String) {node : Node} (h : isLiteral node = true)
    (count : Nat) :
    liftHook (leaveAll [replacer value] node) count =
      .ok [node.replaceWith (literalNode value)] (count + 1) := by
  simp only [liftHook, focus, leaveAll, replacer, h]
  rfl

/-- Leaving any other node keeps it and counts nothing. -/
theorem leaveAll_replacer_of_not_literal (value : String) {node : Node} (h : isLiteral node = false)
    (count : Nat) : liftHook (leaveAll [replacer value] node) count = .ok [node] count := by
  simp only [liftHook, focus, leaveAll, replacer, h]
  rfl

/-- Neighbours add up their numbers of literals. -/
theorem walkList_of_counts {walk : Node → WalkM Nat Walked} {rewrite : Node → List Node}
    {weight : Node → List Node} {nodes : List Node}
    (h : ∀ node ∈ nodes, ∀ count, walk node count =
      .ok ⟨rewrite node, false⟩ (count + (weight node).length)) (count : Nat) :
    walkList walk nodes count =
      .ok ⟨nodes.flatMap rewrite, false⟩ (count + (nodes.flatMap weight).length) := by
  induction nodes generalizing count with
  | nil => rfl
  | cons node rest ih =>
    have hrest := ih (fun other hother => h other (List.mem_cons_of_mem _ hother))
      (count + (weight node).length)
    rw [walkList, bind_apply, h node List.mem_cons_self]
    simp only [Bool.false_eq_true, if_false]
    rw [bind_apply, hrest, List.flatMap_cons, List.flatMap_cons, List.length_append,
      ← Nat.add_assoc]
    rfl

/-- A walk over a node rewrites it, and counts the outermost literals at and below it. -/
theorem walkNode_replacer (value : String) {limit : Nat} {node : Node} (hdepth : node.depth ≤ limit)
    (count : Nat) :
    walkNode [replacer value] limit node count =
      .ok ⟨Policy.rewrite [policy value] node, false⟩ (count + (outermost node).length) := by
  induction limit generalizing node count with
  | zero => exact absurd hdepth node.not_depth_le_zero
  | succ limit ih =>
    rw [walkNode, bind_apply, enterAll_replacer, outermost_eq]
    cases hliteral : isLiteral node with
    | true =>
      simp only [if_true]
      rw [bind_apply, leaveAll_replacer_of_literal value hliteral,
        rewrite_of_literal value hliteral]
      rfl
    | false =>
      have hbelow := walkList_of_counts (fun child hchild count =>
        ih (Node.depth_le_of_child hdepth hchild) count) count
      simp only [Bool.false_eq_true, if_false]
      rw [bind_apply, hbelow, rewrite_of_not_literal value hliteral]
      simp only [Bool.false_eq_true, if_false]
      rw [bind_apply, leaveAll_replacer_of_not_literal value ?_]
      · rfl
      · exact hliteral

/-- What one walk makes of a tree, and what it adds to the number of literals. -/
theorem traverse_eq (value : String) (tree : Tree) (count : Nat) :
    Traversal.traverse [replacer value] tree count =
      .ok ⟨tree.statements.flatMap (Policy.rewrite [policy value])⟩
        (count + (outermostAll tree.statements).length) := by
  have hwalk := walkList_of_counts (fun node (hnode : node ∈ tree.statements) count =>
    walkNode_replacer value (Tree.depth_le_of_statement hnode growth) count) count
  have hbefore : liftHook (onTree Visitor.before [replacer value] tree) count = .ok tree count :=
    rfl
  rw [Traversal.traverse, traverseWithin, bind_apply, hbefore]
  simp only
  rw [bind_apply, hwalk, outermostAll_eq_flatMap]
  rfl

/-! ### Walking again -/

/-- Neighbours are replaced one for one. -/
theorem forall₂_replaced_rewrite (value : String) (nodes : List Node) :
    List.Forall₂ (Replaced value) nodes (nodes.flatMap (Policy.rewrite [policy value])) :=
  forall₂_flatMap_of_single fun node _ => replaced_rewrite value node

/-- What is on the right of a pairing has a partner on the left. -/
theorem exists_of_mem_right {related : Node → Node → Prop} {nodes lefts : List Node} {left : Node}
    (h : List.Forall₂ related nodes lefts) (hleft : left ∈ lefts) :
    ∃ node ∈ nodes, related node left := by
  induction h with
  | nil => exact absurd hleft List.not_mem_nil
  | @cons node other nodes lefts hfirst _ ih =>
    rcases List.mem_cons.mp hleft with rfl | hleft
    · exact ⟨node, List.mem_cons_self, hfirst⟩
    · obtain ⟨found, hfound, hrelated⟩ := ih hleft
      exact ⟨found, List.mem_cons_of_mem _ hfound, hrelated⟩

namespace Replaced

variable {value : String} {node left : Node}

/-- After the replacement the outermost literals are the leaves in the places of those before it. -/
theorem forall₂_outermost (h : Replaced value node left) :
    List.Forall₂ (fun literal leaf => leaf = replacement value literal) (outermost node)
      (outermost left) := by
  induction node using Node.childInduction generalizing left with
  | step node ih =>
    rw [outermost_eq node, outermost_eq left]
    cases h with
    | literal hliteral =>
      rw [if_pos hliteral, if_pos (isLiteral_replacement value node)]
      exact .cons rfl .nil
    | other hliteral hkind hfield htext horigin hspan hchildren =>
      rw [isLiteral_of_kind hkind, hliteral]
      have hboth := (List.forall₂_and_left _ _).mpr
        ⟨fun child hchild other => @ih child hchild other, hchildren⟩
      exact List.rel_flatMap hboth fun child other hother => hother.1 other hother.2

/-- Every literal that is there after the replacement took the place of one. -/
theorem exists_replacement (h : Replaced value node left) {below : Node}
    (hbelow : below ∈ left.preorder) (hbelow_literal : isLiteral below = true) :
    ∃ literal ∈ outermost node, below = replacement value literal := by
  induction node using Node.childInduction generalizing left with
  | step node ih =>
    rw [outermost_eq]
    rw [Node.preorder_eq, List.mem_cons] at hbelow
    cases h with
    | literal hliteral =>
      rw [if_pos hliteral]
      refine ⟨node, List.mem_singleton_self node, ?_⟩
      exact hbelow.resolve_right List.not_mem_nil
    | other hliteral hkind hfield htext horigin hspan hchildren =>
      rw [hliteral]
      rcases hbelow with rfl | hbelow
      · rw [isLiteral_of_kind hkind, hliteral] at hbelow_literal
        cases hbelow_literal
      · rw [Node.preorderList_eq_flatMap, List.mem_flatMap] at hbelow
        obtain ⟨other, hother, hbelow⟩ := hbelow
        obtain ⟨child, hchild, hreplaced⟩ := exists_of_mem_right hchildren hother
        obtain ⟨literal, hmem, heq⟩ := ih child hchild hreplaced hbelow
        exact ⟨literal, List.mem_flatMap.mpr ⟨child, hchild, hmem⟩, heq⟩

/-- What was replaced once is replaced by itself. -/
theorem rewrite_eq (h : Replaced value node left) :
    Policy.rewrite [policy value] left = [left] := by
  induction node using Node.childInduction generalizing left with
  | step node ih =>
    cases h with
    | literal hliteral => exact rewrite_of_literal value (isLiteral_replacement value node)
    | other hliteral hkind hfield htext horigin hspan hchildren =>
      have hkept : left.children.flatMap (Policy.rewrite [policy value]) = left.children := by
        refine Policy.flatMap_of_kept fun other hother => ?_
        obtain ⟨child, hchild, hreplaced⟩ := exists_of_mem_right hchildren hother
        exact ih child hchild hreplaced
      rw [rewrite_of_not_literal value ((isLiteral_of_kind hkind).trans hliteral), hkept, Node.eta]

end Replaced

/-- Any number of walks over a tree that one walk leaves as it is. -/
theorem traverseTimes_of_kept {visitors : List (Visitor Nat)} {tree : Tree} {added : Nat}
    (h : ∀ count, Traversal.traverse visitors tree count = .ok tree (count + added))
    (times count : Nat) :
    traverseTimes visitors times tree count = .ok tree (count + times * added) := by
  induction times generalizing count with
  | zero =>
    rw [Nat.zero_mul, Nat.add_zero]
    rfl
  | succ times ih =>
    rw [traverseTimes, bind_apply, h, Nat.succ_mul]
    simp only
    rw [ih, Nat.add_assoc, Nat.add_comm added]

/-- One walk with the visitor replaces exactly the outermost literals, leaves everything else as it
is, and counts them. Afterwards every literal is a leaf that took the place of one of them. Any
number of further walks leaves the tree as it is, and each of them counts as many literals again. -/
theorem traverse_replacer (value : String) (tree : Tree) (count : Nat) :
    ∃ left, Traversal.traverse [replacer value] tree count =
        .ok left (count + (outermostAll tree.statements).length) ∧
      List.Forall₂ (Replaced value) tree.statements left.statements ∧
      (∀ node ∈ left.nodes, isLiteral node = true →
        ∃ literal ∈ outermostAll tree.statements, node = replacement value literal) ∧
      ∀ times start, traverseTimes [replacer value] times left start =
        .ok left (start + times * (outermostAll tree.statements).length) := by
  have hreplaced := forall₂_replaced_rewrite value tree.statements
  refine ⟨_, traverse_eq value tree count, hreplaced, ?_, ?_⟩
  · intro node hnode hliteral
    rw [Tree.nodes, Node.preorderList_eq_flatMap, List.mem_flatMap] at hnode
    obtain ⟨left, hleft, hbelow⟩ := hnode
    obtain ⟨statement, hstatement, hstands⟩ := exists_of_mem_right hreplaced hleft
    obtain ⟨literal, hmem, heq⟩ := hstands.exists_replacement hbelow hliteral
    rw [outermostAll_eq_flatMap]
    exact ⟨literal, List.mem_flatMap.mpr ⟨statement, hstatement, hmem⟩, heq⟩
  · refine traverseTimes_of_kept fun start => ?_
    have hkept := Policy.flatMap_of_kept fun left hleft => by
      obtain ⟨statement, -, hstands⟩ := exists_of_mem_right hreplaced hleft
      exact hstands.rewrite_eq
    have hsame := List.rel_flatMap hreplaced fun node left hstands => hstands.forall₂_outermost
    rw [traverse_eq, hkept, outermostAll_eq_flatMap, outermostAll_eq_flatMap, hsame.length_eq]

end StringLiterals

end Retouch
