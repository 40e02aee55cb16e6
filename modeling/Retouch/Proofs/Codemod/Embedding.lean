import Retouch.Proofs.Actions
import Retouch.Run.Transformer

/-!
# Walks on a part of the state

A visitor can be made to work on a part of a larger state (`Visitor.focus`). A walk with such
visitors does on the part what the walk with the visitors themselves does, and the rest of the state
stays as it is (`traverse_focus`).

The reason is that `focus` takes the steps of an action one by one (`focus_pure`, `focus_bind`) when
the part can be read and replaced as one expects of a part (`IsPart`). The statement then goes
through every definition that a walk is made of.
-/

namespace Retouch

variable {ε ε' σ τ α β : Type} {get : σ → τ} {put : τ → σ → σ}

/-! ### Actions -/

/-- What is put is there afterwards, and nothing else of the state depends on it. -/
structure IsPart (get : σ → τ) (put : τ → σ → σ) : Prop where
  get_put : ∀ part state, get (put part state) = part
  put_get : ∀ state, put (get state) state = state
  put_put : ∀ part other state, put part (put other state) = put part state

/-- A value on a part of the state is that value on the whole. -/
theorem focus_pure (h : IsPart get put) (report : ε → ε') (value : α) :
    focus get put report (pure value) = pure value := by
  funext state
  show EStateM.Result.ok value (put (get state) state) = _
  rw [h.put_get]
  rfl

/-- An error on a part of the state is that error on the whole, as it is reported there. -/
theorem focus_throw (h : IsPart get put) (report : ε → ε') (error : ε) :
    focus get put report (throw error : EStateM ε τ α) = throw (report error) := by
  funext state
  show EStateM.Result.error (report error) (put (get state) state) = _
  rw [h.put_get]
  rfl

/-- One action after the other on a part of the state is one after the other on the whole. -/
theorem focus_bind (h : IsPart get put) (report : ε → ε') (action : EStateM ε τ α)
    (next : α → EStateM ε τ β) :
    focus get put report (action >>= next) =
      focus get put report action >>= fun value => focus get put report (next value) := by
  funext state
  rw [bind_apply, focus, focus, bind_apply]
  cases action (get state) with
  | error error part => rfl
  | ok value part =>
    dsimp only
    rw [focus, h.get_put]
    cases next value part <;> simp only [h.put_put]

/-- It does not matter where the error is put in other terms. -/
theorem focus_id_focus (report : ε → ε') (action : EStateM ε τ α) :
    focus id (fun state _ => state) report (focus get put id action) =
      focus get put id (focus id (fun state _ => state) report action) := by
  funext state
  unfold focus
  dsimp only [id]
  cases action (get state) <;> rfl

/-- The whole state is a part of itself. -/
theorem isPart_id : IsPart (id : σ → σ) (fun state _ => state) :=
  ⟨fun _ _ => rfl, fun _ => rfl, fun _ _ _ => rfl⟩

/-! ### Walks -/

namespace Traversal

/-- A visitor that leaves the nodes alone makes no difference to the walk over them. -/
theorem walkNode_cons {visitor : Visitor σ}
    (henter : visitor.enter = fun node => pure (node, .into))
    (hleave : visitor.leave = fun node => pure (node, .keep)) (visitors : List (Visitor σ))
    (limit : Nat) : walkNode (visitor :: visitors) limit = walkNode visitors limit := by
  have henterAll : ∀ node,
      enterAll (visitor :: visitors) false node = enterAll visitors false node := by
    intro node
    rw [enterAll, henter]
    rfl
  have hleaveAll : ∀ node, leaveAll (visitor :: visitors) node = leaveAll visitors node := by
    intro node
    rw [leaveAll, hleave]
    rfl
  induction limit with
  | zero => rfl
  | succ limit ih =>
    funext node
    simp only [walkNode, henterAll, hleaveAll, ih]

section part

variable (h : IsPart get put) (visitors : List (Visitor τ))
include h

/-- On a part of the state, visitors enter a node as they do on that part alone. -/
theorem enterAll_focus (skipping : Bool) (node : Node) :
    enterAll (visitors.map (Visitor.focus get put)) skipping node =
      focus get put id (enterAll visitors skipping node) := by
  induction visitors generalizing skipping node with
  | nil => exact (focus_pure h id _).symm
  | cons visitor rest ih =>
    rw [List.map_cons, enterAll, enterAll, focus_bind h]
    refine congrArg _ (funext fun entered => ?_)
    obtain ⟨node, descent⟩ := entered
    cases descent with
    | into => exact ih skipping node
    | skip => exact ih true node
    | stop => exact (focus_pure h id _).symm

/-- On a part of the state, visitors leave a node as they do on that part alone. -/
theorem leaveAll_focus (node : Node) :
    leaveAll (visitors.map (Visitor.focus get put)) node =
      focus get put id (leaveAll visitors node) := by
  induction visitors generalizing node with
  | nil => exact (focus_pure h id _).symm
  | cons visitor rest ih =>
    rw [List.map_cons, leaveAll, leaveAll, focus_bind h]
    refine congrArg _ (funext fun left => ?_)
    obtain ⟨node, verdict⟩ := left
    cases verdict with
    | keep => exact ih node
    | remove => exact (focus_pure h id _).symm
    | replace nodes => exact (focus_pure h id _).symm

/-- On a part of the state, a hook on trees does what it does on that part alone. -/
theorem onTree_focus {hook : {σ : Type} → Visitor σ → Tree → HookM σ Tree}
    (hhook : ∀ visitor tree, hook (Visitor.focus get put visitor) tree =
      focus get put id (hook visitor tree)) (tree : Tree) :
    onTree hook (visitors.map (Visitor.focus get put)) tree =
      focus get put id (onTree hook visitors tree) := by
  induction visitors generalizing tree with
  | nil => exact (focus_pure h id _).symm
  | cons visitor rest ih =>
    rw [List.map_cons, onTree, onTree, focus_bind h, hhook]
    exact congrArg _ (funext ih)

omit h in
/-- It does not matter whether a hook is lifted before or after it is put on the whole state. -/
theorem liftHook_focus (action : HookM τ α) :
    liftHook (focus get put id action) = focus get put id (liftHook action) :=
  focus_id_focus WalkError.hook action

/-- A walk over neighbours works on the part if the walk over each node does. -/
theorem walkList_focus {walk : Node → WalkM σ Walked} {walkPart : Node → WalkM τ Walked}
    (hwalk : ∀ node, walk node = focus get put id (walkPart node)) (nodes : List Node) :
    walkList walk nodes = focus get put id (walkList walkPart nodes) := by
  induction nodes with
  | nil => exact (focus_pure h id _).symm
  | cons node rest ih =>
    rw [walkList, walkList, focus_bind h, hwalk]
    refine congrArg _ (funext fun first => ?_)
    by_cases hstopped : first.stopped = true
    · simp only [hstopped, if_true]
      exact (focus_pure h id _).symm
    · simp only [hstopped, if_false, Bool.false_eq_true]
      rw [focus_bind h, ih]
      exact congrArg _ (funext fun others => (focus_pure h id _).symm)

/-- A walk over a node works on the part of the state that its visitors work on. -/
theorem walkNode_focus (limit : Nat) (node : Node) :
    walkNode (visitors.map (Visitor.focus get put)) limit node =
      focus get put id (walkNode visitors limit node) := by
  induction limit generalizing node with
  | zero => exact (focus_throw h id _).symm
  | succ limit ih =>
    have hleave : ∀ node, (do
        let nodes ← liftHook (leaveAll (visitors.map (Visitor.focus get put)) node)
        pure ⟨nodes, false⟩ : WalkM σ Walked) =
        focus get put id (do
          let nodes ← liftHook (leaveAll visitors node)
          pure ⟨nodes, false⟩) := by
      intro node
      rw [leaveAll_focus h, liftHook_focus, focus_bind h]
      exact congrArg _ (funext fun nodes => (focus_pure h id _).symm)
    rw [walkNode, walkNode, focus_bind h, enterAll_focus h, liftHook_focus]
    refine congrArg _ (funext fun entered => ?_)
    obtain ⟨node, descent⟩ := entered
    cases descent with
    | stop => exact (focus_pure h id _).symm
    | skip => exact hleave node
    | into =>
      dsimp only
      rw [focus_bind h, walkList_focus h ih]
      refine congrArg _ (funext fun below => ?_)
      by_cases hstopped : below.stopped = true
      · simp only [hstopped, if_true]
        exact (focus_pure h id _).symm
      · simp only [hstopped, if_false, Bool.false_eq_true]
        exact hleave _

/-- A walk with visitors that work on a part of the state is the walk on that part. -/
theorem traverse_focus (tree : Tree) :
    traverse (visitors.map (Visitor.focus get put)) tree =
      focus get put id (traverse visitors tree) := by
  rw [traverse, traverse, traverseWithin, traverseWithin, focus_bind h,
    onTree_focus h visitors (fun _ _ => rfl), liftHook_focus]
  refine congrArg _ (funext fun tree => ?_)
  rw [focus_bind h, walkList_focus h (walkNode_focus h visitors _)]
  refine congrArg _ (funext fun walked => ?_)
  rw [onTree_focus h visitors (fun _ _ => rfl), liftHook_focus]

end part

end Traversal

end Retouch
