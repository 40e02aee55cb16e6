import Retouch.Proofs.Actions
import Retouch.Traversal.Walk

/-!
# Limits on the depth of a walk

A walk has a limit on its depth, since its visitors may deepen the tree as they go. The limit is no
part of what a walk means: once a walk has ended within some limit, a larger one changes nothing
(`traverseWithin_of_le`). So all limits that are large enough give the same walk, and `traverse`,
which fixes one, gives that walk too (`traverse_eq_traverseWithin`).

One walk continues another (`Continues`) if it ends in the same way wherever the other one ends
before its limit. The definitions of a walk respect this, from the walk over a node to the whole
walk.
-/

namespace Retouch.Traversal

variable {σ α β : Type}

/-- The walk ends before it comes to its limit, with a result or with the failure of a hook. -/
def Ends (result : EStateM.Result WalkError σ α) : Prop :=
  failureOf result ≠ some .tooDeep

instance (result : EStateM.Result WalkError σ α) : Decidable (Ends result) :=
  inferInstanceAs (Decidable (_ ≠ _))

/-- A result is an end. -/
theorem ends_ok (value : α) (state : σ) : Ends (.ok value state) := by
  intro h
  cases h

/-- Wherever the first walk ends, the second one ends in the same way. -/
def Continues (short long : WalkM σ α) : Prop :=
  ∀ state, Ends (short state) → long state = short state

namespace Continues

/-- A walk continues itself. -/
theorem refl (walk : WalkM σ α) : Continues walk walk :=
  fun _ _ => rfl

/-- Of walks in two parts, one continues the other if this holds of the parts. -/
theorem bind {short long : WalkM σ α} {shortNext longNext : α → WalkM σ β}
    (hfirst : Continues short long)
    (hnext : ∀ value, Continues (shortNext value) (longNext value)) :
    Continues (short >>= shortNext) (long >>= longNext) := by
  intro state hends
  rw [bind_apply] at hends
  rw [bind_apply, bind_apply]
  cases hshort : short state with
  | ok value after =>
    rw [hshort] at hends
    rw [hfirst state (by rw [hshort]; exact ends_ok value after), hshort]
    exact hnext value after hends
  | error error after =>
    rw [hshort] at hends
    rw [hfirst state (by rw [hshort]; exact hends), hshort]

end Continues

/-- A walk over neighbours continues another if the walks over each node do. -/
theorem continues_walkList {short long : Node → WalkM σ Walked}
    (h : ∀ node, Continues (short node) (long node)) (nodes : List Node) :
    Continues (walkList short nodes) (walkList long nodes) := by
  induction nodes with
  | nil => exact .refl _
  | cons node rest ih =>
    refine (h node).bind fun first => ?_
    split
    · exact .refl _
    · exact ih.bind fun others => .refl _

variable (visitors : List (Visitor σ))

/-- A walk over a node continues the one with a smaller limit. -/
theorem continues_walkNode {limit more : Nat} (hle : limit ≤ more) (node : Node) :
    Continues (walkNode visitors limit node) (walkNode visitors more node) := by
  induction limit generalizing more node with
  | zero =>
    -- without any level, no walk ends
    intro state hends
    exact absurd rfl hends
  | succ limit ih =>
    obtain ⟨more, rfl⟩ := Nat.exists_eq_succ_of_ne_zero (Nat.ne_zero_of_lt hle)
    have hbelow := fun node => ih (Nat.le_of_succ_le_succ hle) node
    refine (Continues.refl _).bind ?_
    rintro ⟨node, descent⟩
    cases descent with
    | stop => exact .refl _
    | skip => exact .refl _
    | into => exact (continues_walkList hbelow node.children).bind fun below => .refl _

/-- A whole walk continues the one with a smaller limit. -/
theorem continues_traverseWithin {levels more : Nat} (hle : levels ≤ more) (tree : Tree) :
    Continues (traverseWithin levels visitors tree) (traverseWithin more visitors tree) := by
  refine (Continues.refl _).bind fun tree => ?_
  have hlimit : tree.depth + levels ≤ tree.depth + more := Nat.add_le_add_left hle _
  exact (continues_walkList (continues_walkNode visitors hlimit) tree.statements).bind
    fun walked => .refl _

variable {visitors} {tree : Tree} {state : σ} {levels more : Nat}

/-- Once a walk has ended within a limit, a larger limit changes nothing. -/
theorem traverseWithin_of_le (hle : levels ≤ more)
    (hends : Ends (traverseWithin levels visitors tree state)) :
    traverseWithin more visitors tree state = traverseWithin levels visitors tree state :=
  continues_traverseWithin visitors hle tree state hends

/-- All limits within which a walk ends give the same walk. In particular `traverse` does not depend
on the limit that it sets, if the walk ends there. -/
theorem traverse_eq_traverseWithin (hends : Ends (traverse visitors tree state))
    (hlevels : Ends (traverseWithin levels visitors tree state)) :
    traverse visitors tree state = traverseWithin levels visitors tree state := by
  rcases Nat.le_total growth levels with hle | hle
  · exact (traverseWithin_of_le hle hends).symm
  · exact traverseWithin_of_le hle hlevels

/-- Where a visitor puts a level below a leaf, the limit has to leave room for it. -/
example :
    let sprouting : Visitor Unit :=
      { enter := fun node =>
          pure (if node.kind = "seed" then .branch "stem" [.leaf "leaf" ""] else node, .into) }
    ¬ Ends (traverseWithin 0 [sprouting] ⟨[.leaf "seed" ""]⟩ ()) ∧
      Ends (traverseWithin 1 [sprouting] ⟨[.leaf "seed" ""]⟩ ()) := by
  decide

end Retouch.Traversal
