import Mathlib.Data.List.Basic
import Retouch.Proofs.Traversal.Rewriting

/-!
# Walks that end early

A walk can end before it has been everywhere: a visitor stops it when it enters a node, or a hook
fails. Visitors may change what they are given and answer as they like, in any state, so what has
become of the tree by then can only be told from the calls that were made. The relations of this
module tell it, for any list of calls.

* `Entered`, `Left`, `Relayed`: what comes of a node that visitors enter or leave one after the
  other, and of a tree that their hooks on trees hand on.
* `Passed`: what comes of neighbours that were walked over to the end.
* `Frozen`: what neighbours look like when the walk has stopped at or below one of them. Those
  before it are what has come of them, those after it are as they were, and the nodes above the one
  that was stopped at are kept and not left.

Every walk over nodes gives an account of itself in these terms (`Accounts`), by induction on its
depth (`shows_walkNode`). From this follows what happens after a stop and after a failure
(`traverseWithin_ends_early`): after a stop only the hooks on trees are called, on the frozen tree,
and after a failure nothing is called any more. This holds for every limit on the depth, so it holds
for every walk that ends.
-/

namespace Retouch

namespace Traversal

variable {σ : Type}

/-! ### Calls that end a walk -/

namespace Call

/-- The failure of a call. -/
def failure? : Call → Option Failure
  | before _ _ (.error failure) => some failure
  | enter _ _ (.error failure) => some failure
  | leave _ _ (.error failure) => some failure
  | after _ _ (.error failure) => some failure
  | _ => none

/-- The visitor asks to stop. -/
def stops : Call → Bool
  | enter _ _ (.ok (_, .stop)) => true
  | _ => false

/-- The walk goes on after the call. -/
def Calm (call : Call) : Prop :=
  call.failure? = none ∧ call.stops = false

end Call

/-- The last call fails, and the walk went on until then. -/
def Breaks (calls : List Call) (failure : Failure) : Prop :=
  ∃ earlier call, calls = earlier ++ [call] ∧ (∀ made ∈ earlier, made.Calm) ∧
    call.failure? = some failure

/-- In the last call a visitor stops at the node, and the walk went on until then. -/
def Stops (calls : List Call) (stopped : Node) : Prop :=
  ∃ earlier number node, calls = earlier ++ [.enter number node (.ok (stopped, .stop))] ∧
    ∀ made ∈ earlier, made.Calm

section calls

variable {first calls : List Call} {failure : Failure} {stopped : Node}

/-- If a walk goes on after the first calls and after the others, it goes on after all of them. -/
theorem calm_append (hfirst : ∀ call ∈ first, call.Calm) (hcalls : ∀ call ∈ calls, call.Calm) :
    ∀ call ∈ first ++ calls, call.Calm :=
  List.forall_mem_append.mpr ⟨hfirst, hcalls⟩

/-- A call that fails breaks the walk off. -/
theorem Breaks.single {call : Call} (h : call.failure? = some failure) : Breaks [call] failure :=
  ⟨[], call, rfl, List.forall_mem_nil _, h⟩

/-- Calls after which the walk goes on may come before those that break it off. -/
theorem Breaks.append (h : Breaks calls failure) (hfirst : ∀ call ∈ first, call.Calm) :
    Breaks (first ++ calls) failure := by
  obtain ⟨earlier, call, rfl, hearlier, hcall⟩ := h
  exact ⟨first ++ earlier, call, (List.append_assoc ..).symm, calm_append hfirst hearlier, hcall⟩

/-- Calls after which the walk goes on may come before those that stop it. -/
theorem Stops.append (h : Stops calls stopped) (hfirst : ∀ call ∈ first, call.Calm) :
    Stops (first ++ calls) stopped := by
  obtain ⟨earlier, number, node, rfl, hearlier⟩ := h
  exact ⟨first ++ earlier, number, node, (List.append_assoc ..).symm, calm_append hfirst hearlier⟩

/-- A call that fails does not ask to stop. -/
theorem Call.stops_eq_false_of_failure? {call : Call} (h : call.failure? = some failure) :
    call.stops = false := by
  cases call with
  | before visitor tree outcome => rfl
  | leave visitor node outcome => rfl
  | after visitor tree outcome => rfl
  | enter visitor node outcome =>
    cases outcome with
    | error given => rfl
    | ok value => cases h

/-- In a walk that is broken off no visitor has asked to stop. -/
theorem Breaks.stops_eq_false (h : Breaks calls failure) : ∀ call ∈ calls, call.stops = false := by
  obtain ⟨earlier, last, rfl, hearlier, hlast⟩ := h
  have hend := Call.stops_eq_false_of_failure? hlast
  refine List.forall_mem_append.mpr ⟨?_, List.forall_mem_singleton.mpr hend⟩
  exact fun call hcall => (hearlier call hcall).2

end calls

/-! ### What comes of one node, and of a tree -/

/-- The calls of the visitors from the given number on, so many of them, that enter a node one after
the other, each as the one before it left it. -/
inductive Entered : Nat → Nat → Bool → Node → List Call → Except Failure (Node × Descent) → Prop
  | done {number : Nat} {skipping : Bool} {node : Node} :
    Entered number 0 skipping node [] (.ok (node, if skipping then .skip else .into))
  | failed {number remaining : Nat} {skipping : Bool} {node : Node} {failure : Failure} :
    Entered number (remaining + 1) skipping node [.enter number node (.error failure)]
      (.error failure)
  | into {number remaining : Nat} {skipping : Bool} {node changed : Node} {calls : List Call}
    {outcome : Except Failure (Node × Descent)} :
    Entered (number + 1) remaining skipping changed calls outcome →
      Entered number (remaining + 1) skipping node
        (.enter number node (.ok (changed, .into)) :: calls) outcome
  | skip {number remaining : Nat} {skipping : Bool} {node changed : Node} {calls : List Call}
    {outcome : Except Failure (Node × Descent)} :
    Entered (number + 1) remaining true changed calls outcome →
      Entered number (remaining + 1) skipping node
        (.enter number node (.ok (changed, .skip)) :: calls) outcome
  | stop {number remaining : Nat} {skipping : Bool} {node stopped : Node} :
    Entered number (remaining + 1) skipping node [.enter number node (.ok (stopped, .stop))]
      (.ok (stopped, .stop))

/-- The calls of the visitors that leave a node, up to the first that does not keep it. -/
inductive Left : Nat → Nat → Node → List Call → Except Failure (List Node) → Prop
  | done {number : Nat} {node : Node} : Left number 0 node [] (.ok [node])
  | failed {number remaining : Nat} {node : Node} {failure : Failure} :
    Left number (remaining + 1) node [.leave number node (.error failure)] (.error failure)
  | keep {number remaining : Nat} {node changed : Node} {calls : List Call}
    {outcome : Except Failure (List Node)} :
    Left (number + 1) remaining changed calls outcome →
      Left number (remaining + 1) node (.leave number node (.ok (changed, .keep)) :: calls) outcome
  | remove {number remaining : Nat} {node changed : Node} :
    Left number (remaining + 1) node [.leave number node (.ok (changed, .remove))] (.ok [])
  | replace {number remaining : Nat} {node changed : Node} {nodes : List Node} :
    Left number (remaining + 1) node [.leave number node (.ok (changed, .replace nodes))]
      (.ok nodes)

/-- The calls of a hook on trees of all visitors, each of which is given what the one before it made
of the tree. -/
inductive Relayed (call : Nat → Tree → Except Failure Tree → Call) :
    Nat → Nat → Tree → List Call → Except Failure Tree → Prop
  | done {number : Nat} {tree : Tree} : Relayed call number 0 tree [] (.ok tree)
  | failed {number remaining : Nat} {tree : Tree} {failure : Failure} :
    Relayed call number (remaining + 1) tree [call number tree (.error failure)] (.error failure)
  | next {number remaining : Nat} {tree changed : Tree} {calls : List Call}
    {outcome : Except Failure Tree} :
    Relayed call (number + 1) remaining changed calls outcome →
      Relayed call number (remaining + 1) tree (call number tree (.ok changed) :: calls) outcome

/-! How the calls end that lead to a value or a failure. -/

/-- If the hooks fail, the last call fails; if they stop at a node, the last call stops there; and
otherwise the walk goes on after all calls. -/
def Ended {α : Type} (stop? : α → Option Node) (calls : List Call) : Except Failure α → Prop
  | .error failure => Breaks calls failure
  | .ok value =>
    match stop? value with
    | some stopped => Stops calls stopped
    | none => ∀ call ∈ calls, call.Calm

/-- One more call at the start, after which the walk goes on, does not change how the calls end. -/
theorem Ended.cons {α : Type} {stop? : α → Option Node} {call : Call} {calls : List Call}
    {outcome : Except Failure α} (h : Ended stop? calls outcome) (hcall : call.Calm) :
    Ended stop? (call :: calls) outcome := by
  have hfirst : ∀ made ∈ [call], made.Calm := List.forall_mem_singleton.mpr hcall
  cases outcome with
  | error failure => exact Breaks.append h hfirst
  | ok value =>
    cases hstop : stop? value with
    | some stopped =>
      simp only [Ended, hstop] at h ⊢
      exact h.append hfirst
    | none =>
      simp only [Ended, hstop] at h ⊢
      exact calm_append hfirst h

/-- The node at which entering stops the walk. -/
def stop? : Node × Descent → Option Node
  | (node, .stop) => some node
  | _ => none

section ended

variable {number remaining : Nat} {skipping : Bool} {node : Node} {calls : List Call}

/-- A failure or a stop on entering a node is in the last call. -/
theorem Entered.ended {outcome : Except Failure (Node × Descent)}
    (h : Entered number remaining skipping node calls outcome) : Ended stop? calls outcome := by
  induction h with
  | @done _ skipping => cases skipping <;> exact List.forall_mem_nil _
  | failed => exact Breaks.single rfl
  | into _ ih => exact ih.cons ⟨rfl, rfl⟩
  | skip _ ih => exact ih.cons ⟨rfl, rfl⟩
  | stop => exact ⟨[], _, _, rfl, List.forall_mem_nil _⟩

/-- A failure on leaving a node is in the last call, and nothing stops there. -/
theorem Left.ended {outcome : Except Failure (List Node)}
    (h : Left number remaining node calls outcome) : Ended (fun _ => none) calls outcome := by
  induction h with
  | done => exact List.forall_mem_nil _
  | failed => exact Breaks.single rfl
  | keep _ ih => exact ih.cons ⟨rfl, rfl⟩
  | remove => exact List.forall_mem_singleton.mpr ⟨rfl, rfl⟩
  | replace => exact List.forall_mem_singleton.mpr ⟨rfl, rfl⟩

/-- A hook on trees, whose calls do not stop a walk and fail with the hook. -/
structure TreeCall (call : Nat → Tree → Except Failure Tree → Call) : Prop where
  calm : ∀ number tree changed, (call number tree (.ok changed)).Calm
  fails : ∀ number tree failure, (call number tree (.error failure)).failure? = some failure

/-- The hook before the walk is a hook on trees. -/
theorem treeCall_before : TreeCall .before :=
  ⟨fun _ _ _ => ⟨rfl, rfl⟩, fun _ _ _ => rfl⟩

/-- The hook after the walk is a hook on trees. -/
theorem treeCall_after : TreeCall .after :=
  ⟨fun _ _ _ => ⟨rfl, rfl⟩, fun _ _ _ => rfl⟩

/-- A failure of the hooks on trees is in the last call, and nothing stops there. -/
theorem Relayed.ended {call : Nat → Tree → Except Failure Tree → Call} {tree : Tree}
    {outcome : Except Failure Tree} (h : Relayed call number remaining tree calls outcome)
    (hcall : TreeCall call) : Ended (fun _ => none) calls outcome := by
  induction h with
  | done => exact List.forall_mem_nil _
  | failed => exact Breaks.single (hcall.fails _ _ _)
  | next _ ih => exact ih.cons (hcall.calm _ _ _)

end ended

/-! ### What comes of neighbours -/

/-- The calls of a walk over neighbours that went on to the end, and what came of them. -/
inductive Passed (count : Nat) : List Node → List Call → List Node → Prop
  | nil : Passed count [] [] []
  | skip {node entered : Node} {rest results others : List Node}
    {entering leaving calls : List Call} :
    Entered 0 count false node entering (.ok (entered, .skip)) →
      Left 0 count entered leaving (.ok results) → Passed count rest calls others →
      Passed count (node :: rest) (entering ++ (leaving ++ calls)) (results ++ others)
  | into {node entered : Node} {rest children results others : List Node}
    {entering below leaving calls : List Call} :
    Entered 0 count false node entering (.ok (entered, .into)) →
      Passed count entered.children below children →
      Left 0 count { entered with children } leaving (.ok results) →
      Passed count rest calls others →
      Passed count (node :: rest) (entering ++ (below ++ (leaving ++ calls))) (results ++ others)

/-- The calls of a walk over neighbours that was stopped at a node, which one of them is or which is
below one of them, and the neighbours as they are then. -/
inductive Frozen (count : Nat) : List Node → List Call → Node → List Node → Prop
  | here {node stopped : Node} {earlier results later : List Node} {calls entering : List Call} :
    Passed count earlier calls results →
      Entered 0 count false node entering (.ok (stopped, .stop)) →
      Frozen count (earlier ++ node :: later) (calls ++ entering) stopped
        (results ++ stopped :: later)
  | deeper {node parent stopped : Node} {earlier results children later : List Node}
    {calls entering inside : List Call} :
    Passed count earlier calls results →
      Entered 0 count false node entering (.ok (parent, .into)) →
      Frozen count parent.children inside stopped children →
      Frozen count (earlier ++ node :: later) (calls ++ (entering ++ inside)) stopped
        (results ++ { parent with children } :: later)

section neighbours

variable {count : Nat} {nodes others results frozen : List Node} {calls more : List Call}
  {stopped : Node}

/-- In a walk that went on to the end, no call failed or asked to stop. -/
theorem Passed.calm (h : Passed count nodes calls results) : ∀ call ∈ calls, call.Calm := by
  induction h with
  | nil => exact List.forall_mem_nil _
  | skip hentered hleft _ ih =>
    exact calm_append hentered.ended (calm_append hleft.ended ih)
  | into hentered _ hleft _ ihbelow ih =>
    exact calm_append hentered.ended
      (calm_append ihbelow (calm_append hleft.ended ih))

/-- In a walk that was stopped, the last call asked for it. -/
theorem Frozen.stops (h : Frozen count nodes calls stopped frozen) : Stops calls stopped := by
  induction h with
  | here hpassed hentered => exact Stops.append hentered.ended hpassed.calm
  | deeper hpassed hentered _ ih =>
    exact (ih.append hentered.ended).append hpassed.calm

/-- Neighbours that are passed, and others after them, are all passed. -/
theorem Passed.append {results' : List Node} (h : Passed count nodes calls results)
    (hothers : Passed count others more results') :
    Passed count (nodes ++ others) (calls ++ more) (results ++ results') := by
  induction h with
  | nil => exact hothers
  | skip hentered hleft _ ih =>
    simp only [List.append_assoc, List.cons_append]
    exact .skip hentered hleft ih
  | into hentered hbelow hleft _ _ ih =>
    simp only [List.append_assoc, List.cons_append]
    exact .into hentered hbelow hleft ih

/-- Neighbours that come after those among which the walk was stopped stay as they are. -/
theorem Frozen.append (h : Frozen count nodes calls stopped frozen) (others : List Node) :
    Frozen count (nodes ++ others) calls stopped (frozen ++ others) := by
  cases h with
  | here hpassed hentered =>
    simp only [List.append_assoc, List.cons_append]
    exact .here hpassed hentered
  | deeper hpassed hentered hbelow =>
    simp only [List.append_assoc, List.cons_append]
    exact .deeper hpassed hentered hbelow

/-- Neighbours that come before those among which the walk was stopped are passed first. -/
theorem Passed.append_frozen (h : Passed count nodes calls results)
    (hothers : Frozen count others more stopped frozen) :
    Frozen count (nodes ++ others) (calls ++ more) stopped (results ++ frozen) := by
  cases hothers with
  | here hpassed hentered =>
    rw [← List.append_assoc nodes, ← List.append_assoc calls, ← List.append_assoc results]
    exact .here (h.append hpassed) hentered
  | deeper hpassed hentered hbelow =>
    rw [← List.append_assoc nodes, ← List.append_assoc calls, ← List.append_assoc results]
    exact .deeper (h.append hpassed) hentered hbelow

end neighbours

/-- What the calls of a walk over neighbours tell about its outcome. -/
inductive Accounts (count : Nat) (nodes : List Node) : List Call → Except WalkError Walked → Prop
  | passed {calls : List Call} {results : List Node} :
    Passed count nodes calls results → Accounts count nodes calls (.ok ⟨results, false⟩)
  | frozen {calls : List Call} {stopped : Node} {results : List Node} :
    Frozen count nodes calls stopped results → Accounts count nodes calls (.ok ⟨results, true⟩)
  | broken {calls : List Call} {failure : Failure} :
    Breaks calls failure → Accounts count nodes calls (.error (.hook failure))
  | cut {calls : List Call} :
    (∀ call ∈ calls, call.Calm) → Accounts count nodes calls (.error .tooDeep)

/-! ### Walks give an account -/

/-- What visitors make of a node that they enter can be told from their calls. -/
theorem shows_enterAll (visitors : List (Visitor σ)) (number : Nat) (skipping : Bool)
    (node : Node) :
    Shows (enterAll (watchFrom number visitors) skipping node) (enterAll visitors skipping node)
      (Entered number visitors.length skipping node) := by
  induction visitors generalizing number skipping node with
  | nil => exact .pure .done
  | cons visitor rest ih =>
    apply (shows_watch (.enter number node) (visitor.enter node)).bind
    · rintro calls failure ⟨rfl, -⟩
      exact .failed
    · rintro calls ⟨changed, descent⟩ ⟨rfl, -⟩
      cases descent with
      | into => exact (ih (number + 1) skipping changed).mono fun _ _ hrest => .into hrest
      | skip => exact (ih (number + 1) true changed).mono fun _ _ hrest => .skip hrest
      | stop => exact .pure .stop

/-- What visitors leave in the place of a node can be told from their calls. -/
theorem shows_leaveAll (visitors : List (Visitor σ)) (number : Nat) (node : Node) :
    Shows (leaveAll (watchFrom number visitors) node) (leaveAll visitors node)
      (Left number visitors.length node) := by
  induction visitors generalizing number node with
  | nil => exact .pure .done
  | cons visitor rest ih =>
    apply (shows_watch (.leave number node) (visitor.leave node)).bind
    · rintro calls failure ⟨rfl, -⟩
      exact .failed
    · rintro calls ⟨changed, verdict⟩ ⟨rfl, -⟩
      cases verdict with
      | keep => exact (ih (number + 1) changed).mono fun _ _ hrest => .keep hrest
      | remove => exact .pure .remove
      | replace nodes => exact .pure .replace

/-- What the hooks on trees make of a tree can be told from their calls. -/
theorem shows_onTree {hook : {σ : Type} → Visitor σ → Tree → HookM σ Tree}
    {call : Nat → Tree → Except Failure Tree → Call}
    (hwatch : ∀ number (visitor : Visitor σ) tree, hook (watched number visitor) tree =
      watch (call number tree) (hook visitor tree)) (visitors : List (Visitor σ)) (number : Nat)
    (tree : Tree) :
    Shows (onTree hook (watchFrom number visitors) tree) (onTree hook visitors tree)
      (Relayed call number visitors.length tree) := by
  induction visitors generalizing number tree with
  | nil => exact .pure .done
  | cons visitor rest ih =>
    have hfirst := shows_watch (call number tree) (hook visitor tree)
    rw [← hwatch] at hfirst
    apply hfirst.bind
    · rintro calls failure ⟨rfl, -⟩
      exact .failed
    · rintro calls changed ⟨rfl, -⟩
      exact (ih (number + 1) changed).mono fun _ _ hrest => .next hrest

/-- If the walk over each node gives an account, the walk over neighbours does. -/
theorem shows_walkList {count : Nat} {walk : Node → WalkM (Noted σ) Walked}
    {plain : Node → WalkM σ Walked}
    (h : ∀ node, Shows (walk node) (plain node) (Accounts count [node])) (nodes : List Node) :
    Shows (walkList walk nodes) (walkList plain nodes) (Accounts count nodes) := by
  induction nodes with
  | nil => exact .pure (.passed .nil)
  | cons node rest ih =>
    apply (h node).bind
    · intro calls error haccounts
      cases haccounts with
      | broken hbreaks => exact .broken hbreaks
      | cut hcalm => exact .cut hcalm
    · intro calls first haccounts
      cases haccounts with
      | frozen hfrozen =>
        apply Shows.pure
        rw [List.append_nil]
        exact .frozen (hfrozen.append rest)
      | passed hpassed =>
        apply ih.map
        · intro more error haccounts
          cases haccounts with
          | broken hbreaks => exact .broken (hbreaks.append hpassed.calm)
          | cut hcalm => exact .cut (calm_append hpassed.calm hcalm)
        · intro more others haccounts
          cases haccounts with
          | passed hothers => exact .passed (hpassed.append hothers)
          | frozen hothers => exact .frozen (hpassed.append_frozen hothers)

/-- The end of the walk over a node, when it is left. -/
theorem shows_leaving (visitors : List (Visitor σ)) {node left : Node} {calls : List Call}
    (hcalm : ∀ call ∈ calls, call.Calm)
    (hpassed : ∀ leaving results, Left 0 visitors.length left leaving (.ok results) →
      Passed visitors.length [node] (calls ++ leaving) results) :
    Shows
      (do
        let nodes ← liftHook (leaveAll (watchFrom 0 visitors) left)
        pure (Walked.mk nodes false))
      (do
        let nodes ← liftHook (leaveAll visitors left)
        pure (Walked.mk nodes false))
      fun more outcome => Accounts visitors.length [node] (calls ++ more) outcome := by
  apply (shows_leaveAll visitors 0 left).bind_liftHook
  · intro leaving failure hleft
    exact .broken (Breaks.append hleft.ended hcalm)
  · intro leaving results hleft
    apply Shows.pure
    rw [List.append_nil]
    exact .passed (hpassed leaving results hleft)

/-- The walk over a node gives an account of the node. -/
theorem shows_walkNode (visitors : List (Visitor σ)) (limit : Nat) (node : Node) :
    Shows (walkNode (watchFrom 0 visitors) limit node) (walkNode visitors limit node)
      (Accounts visitors.length [node]) := by
  induction limit generalizing node with
  | zero => exact .throw (.cut (List.forall_mem_nil _))
  | succ limit ih =>
    apply (shows_enterAll visitors 0 false node).bind_liftHook
    · intro entering failure hentered
      exact .broken hentered.ended
    · rintro entering ⟨entered, descent⟩ hentered
      cases descent with
      | stop =>
        apply Shows.pure
        rw [List.append_nil]
        exact .frozen (.here .nil hentered)
      | skip =>
        apply shows_leaving visitors hentered.ended
        intro leaving results hleft
        simpa only [List.append_nil] using Passed.skip hentered hleft .nil
      | into =>
        -- the node is left only if nothing below it ended the walk
        have hcalm := hentered.ended
        apply (shows_walkList ih entered.children).bind
        · intro inside error haccounts
          cases haccounts with
          | broken hbreaks => exact .broken (hbreaks.append hcalm)
          | cut hinside => exact .cut (calm_append hcalm hinside)
        · intro inside below haccounts
          cases haccounts with
          | frozen hfrozen =>
            apply Shows.pure
            rw [List.append_nil]
            exact .frozen (.deeper .nil hentered hfrozen)
          | passed hbelow =>
            simp only [← List.append_assoc]
            apply shows_leaving visitors (calm_append hcalm hbelow.calm)
            intro leaving results hleft
            simpa only [List.append_nil, List.append_assoc] using
              Passed.into hentered hbelow hleft .nil

/-! ### What follows a stop, and a failure -/

/-- What the calls of a whole walk tell about its outcome. -/
inductive Tells (count : Nat) (tree : Tree) : List Call → Except WalkError Tree → Prop
  | finished {calls : List Call} {last : Tree} :
    (∀ call ∈ calls, call.Calm) → Tells count tree calls (.ok last)
  | cut {calls : List Call} :
    (∀ call ∈ calls, call.Calm) → Tells count tree calls (.error .tooDeep)
  | broken {calls : List Call} {failure : Failure} :
    Breaks calls failure → Tells count tree calls (.error (.hook failure))
  | frozen {opening walking closing : List Call} {start : Tree} {stopped : Node}
    {statements : List Node} {last : Except Failure Tree} :
    Relayed .before 0 count tree opening (.ok start) →
      Frozen count start.statements walking stopped statements →
      Relayed .after 0 count ⟨statements⟩ closing last →
      Tells count tree (opening ++ (walking ++ closing)) (last.mapError .hook)

/-- What a walk within a limit makes of a tree can be told from its calls. -/
theorem shows_traverseWithin (levels : Nat) (visitors : List (Visitor σ)) (tree : Tree) :
    Shows (traverseWithin levels (watchFrom 0 visitors) tree) (traverseWithin levels visitors tree)
      (Tells visitors.length tree) := by
  have hbefore : Shows (onTree Visitor.before (watchFrom 0 visitors) tree)
      (onTree Visitor.before visitors tree) (Relayed .before 0 visitors.length tree) :=
    shows_onTree (fun _ _ _ => rfl) visitors 0 tree
  have hafter : ∀ tree, Shows (onTree Visitor.after (watchFrom 0 visitors) tree)
      (onTree Visitor.after visitors tree) (Relayed .after 0 visitors.length tree) :=
    shows_onTree (fun _ _ _ => rfl) visitors 0
  apply hbefore.bind_liftHook
  · intro opening failure hopening
    exact .broken (hopening.ended treeCall_before)
  · intro opening start hopening
    have hcalm := hopening.ended treeCall_before
    apply (shows_walkList (shows_walkNode visitors (start.depth + levels)) start.statements).bind
    · intro walking error haccounts
      cases haccounts with
      | broken hbreaks => exact .broken (hbreaks.append hcalm)
      | cut hwalking => exact .cut (calm_append hcalm hwalking)
    · intro walking walked haccounts
      apply (hafter ⟨walked.nodes⟩).liftHook.mono
      rintro closing outcome ⟨last, rfl, hclosing⟩
      cases haccounts with
      | frozen hfrozen => exact .frozen hopening hfrozen hclosing
      | passed hpassed =>
        cases last with
        | ok tree =>
          have hrest := calm_append hpassed.calm (hclosing.ended treeCall_after)
          exact .finished (calm_append hcalm hrest)
        | error failure =>
          have hbreaks := hclosing.ended treeCall_after
          exact .broken ((hbreaks.append hpassed.calm).append hcalm)

section ends

variable {count : Nat} {tree : Tree} {calls earlier later : List Call}
  {outcome : Except WalkError Tree}

/-- The hooks on trees at the end stop nothing. -/
theorem Relayed.stops_eq_false {number : Nat} {last : Except Failure Tree}
    (h : Relayed .after number count tree calls last) : ∀ call ∈ calls, call.stops = false := by
  cases last with
  | ok last =>
    have hcalm : ∀ call ∈ calls, call.Calm := h.ended treeCall_after
    exact fun call hcall => (hcalm call hcall).2
  | error failure => exact Breaks.stops_eq_false (h.ended treeCall_after)

/-- If a visitor stops, then the walk went on until then, the tree is frozen, and only the hooks on
trees follow. -/
theorem Tells.of_stop (h : Tells count tree calls outcome) {number : Nat} {node stopped : Node}
    (hcalls : calls = earlier ++ .enter number node (.ok (stopped, .stop)) :: later) :
    ∃ opening walking start statements last,
      earlier ++ [.enter number node (.ok (stopped, .stop))] = opening ++ walking ∧
      Relayed .before 0 count tree opening (.ok start) ∧
      Frozen count start.statements walking stopped statements ∧
      Relayed .after 0 count ⟨statements⟩ later last ∧ outcome = last.mapError .hook := by
  have hnever : ¬ ∀ call ∈ calls, call.stops = false := by
    intro hall
    have hstop := hall (.enter number node (.ok (stopped, .stop))) (by simp [hcalls])
    cases hstop
  cases h with
  | finished hcalm => exact absurd (fun call hcall => (hcalm call hcall).2) hnever
  | cut hcalm => exact absurd (fun call hcall => (hcalm call hcall).2) hnever
  | broken hbreaks => exact absurd hbreaks.stops_eq_false hnever
  | @frozen opening walking closing start stopped' statements last hopening hfrozen hclosing =>
    obtain ⟨before, number', node', rfl, hbefore⟩ := hfrozen.stops
    have hcalm := calm_append (hopening.ended treeCall_before) hbefore
    -- The stop that is given can only be the one at which the walk was stopped.
    have hfirst : Call.enter number node (.ok (stopped, .stop)) ∉ opening ++ before := by
      intro hmem
      cases (hcalm _ hmem).2
    have hlast : Call.enter number node (.ok (stopped, .stop)) ∉ closing := by
      intro hmem
      cases hclosing.stops_eq_false _ hmem
    have hsplit : (opening ++ before) ++
        Call.enter number' node' (.ok (stopped', .stop)) :: closing =
        earlier ++ .enter number node (.ok (stopped, .stop)) :: later := by
      rw [← hcalls]
      simp only [List.append_assoc, List.cons_append, List.nil_append]
    obtain ⟨rfl, hcall, rfl⟩ := (List.append_cons_inj_of_notMem hfirst hlast).mp hsplit
    cases hcall
    exact ⟨opening, _, start, statements, last, List.append_assoc .., hopening, hfrozen, hclosing,
      rfl⟩

/-- If only the last call fails, a call that fails is the last one. -/
theorem last_of_failure? {before : List Call} {last call : Call} {failure : Failure}
    (hbefore : ∀ made ∈ before, made.failure? = none) (hcall : call.failure? = some failure)
    (h : before ++ [last] = earlier ++ call :: later) : last = call ∧ later = [] := by
  have hnot : call ∉ before := by
    intro hmem
    have hnone := hbefore call hmem
    rw [hcall] at hnone
    cases hnone
  obtain ⟨-, hlast, hlater⟩ := (List.append_cons_inj_of_notMem hnot List.not_mem_nil).mp h
  exact ⟨hlast, hlater.symm⟩

/-- If a hook fails, then nothing follows, and the walk fails as the hook did. -/
theorem Tells.of_failure (h : Tells count tree calls outcome) {call : Call} {failure : Failure}
    (hcalls : calls = earlier ++ call :: later) (hcall : call.failure? = some failure) :
    later = [] ∧ outcome = .error (.hook failure) := by
  have hnever : ¬ ∀ made ∈ calls, made.failure? = none := by
    intro hall
    have hnone := hall call (by simp [hcalls])
    rw [hcall] at hnone
    cases hnone
  cases h with
  | finished hcalm => exact absurd (fun made hmade => (hcalm made hmade).1) hnever
  | cut hcalm => exact absurd (fun made hmade => (hcalm made hmade).1) hnever
  | broken hbreaks =>
    obtain ⟨before, last, rfl, hbefore, hlast⟩ := hbreaks
    obtain ⟨rfl, hlater⟩ :=
      last_of_failure? (fun made hmade => (hbefore made hmade).1) hcall hcalls
    cases hlast.symm.trans hcall
    exact ⟨hlater, rfl⟩
  | @frozen opening walking closing start stopped statements last hopening hfrozen hclosing =>
    -- the walk was stopped, so only a hook after it can have failed
    have hwalked : ∀ made ∈ opening ++ walking, made.failure? = none := by
      obtain ⟨before, number, node, rfl, hbefore⟩ := hfrozen.stops
      rw [← List.append_assoc]
      refine List.forall_mem_append.mpr ⟨?_, List.forall_mem_singleton.mpr rfl⟩
      have hcalm := calm_append (hopening.ended treeCall_before) hbefore
      exact fun made hmade => (hcalm made hmade).1
    rw [← List.append_assoc] at hcalls hnever
    cases last with
    | ok tree =>
      have hcalm := hclosing.ended treeCall_after
      exact absurd (List.forall_mem_append.mpr
        ⟨hwalked, fun made hmade => (hcalm made hmade).1⟩) hnever
    | error failure' =>
      obtain ⟨before, last, rfl, hbefore, hlast⟩ := hclosing.ended treeCall_after
      rw [← List.append_assoc] at hcalls
      obtain ⟨rfl, hlater⟩ := last_of_failure?
        (List.forall_mem_append.mpr ⟨hwalked, fun made hmade => (hbefore made hmade).1⟩)
        hcall hcalls
      cases hlast.symm.trans hcall
      exact ⟨hlater, rfl⟩

end ends

/-- Walks that end early, for any visitors and in any state.

* If a visitor stops the walk, then no node is entered or left afterwards. What follows are the
  hooks on trees of all visitors in their order, on the tree as it was frozen by the stop.
* If a hook fails, then no hook is called afterwards, and the walk fails as the hook did. -/
theorem traverseWithin_ends_early (levels : Nat) (visitors : List (Visitor σ)) (tree : Tree)
    (own : σ) :
    let result := traverseWithin levels visitors tree own
    ∃ calls, traverseWithin levels (watchFrom 0 visitors) tree ⟨own, []⟩ = noting calls result ∧
      (∀ earlier number node stopped later,
        calls = earlier ++ .enter number node (.ok (stopped, .stop)) :: later →
        ∃ opening walking start statements last,
          earlier ++ [.enter number node (.ok (stopped, .stop))] = opening ++ walking ∧
          Relayed .before 0 visitors.length tree opening (.ok start) ∧
          Frozen visitors.length start.statements walking stopped statements ∧
          Relayed .after 0 visitors.length ⟨statements⟩ later last ∧
          ending result = last.mapError .hook) ∧
      ∀ earlier call later failure, calls = earlier ++ call :: later →
        call.failure? = some failure → later = [] ∧ ending result = .error (.hook failure) := by
  obtain ⟨calls, hrun, htells⟩ := shows_traverseWithin levels visitors tree own []
  refine ⟨calls, hrun, ?_, ?_⟩
  · intro earlier number node stopped later hcalls
    exact htells.of_stop hcalls
  · intro earlier call later failure hcalls hcall
    exact htells.of_failure hcalls hcall

/-- Marks the nodes that it enters, drops comments, and stops at names. -/
def halting : Visitor Unit where
  enter node := pure (node.withField "entered", if node.kind = "name" then .stop else .into)
  leave node := pure (node, if node.kind = "comment" then .remove else .keep)

/-- The walk stops at the name: its block is kept as it was entered, and the statements after it are
not entered at all. -/
theorem traverseWithin_ends_early_commented :
    valueOf? (traverseWithin 0 [halting] commented ()) = some
        ⟨[(Node.branch "block" [(Node.leaf "name" "f").withField "entered"]).withField "entered",
          .branch "function" [.leaf "comment" "# two"], .branch "block" []]⟩ ∧
      ∃ (start : Tree) (walking later : List Call) (statements : List Node)
          (last : Except Failure Tree),
        Frozen 1 start.statements walking ((Node.leaf "name" "f").withField "entered") statements ∧
        Relayed .after 0 1 ⟨statements⟩ later last := by
  refine ⟨rfl, ?_⟩
  obtain ⟨calls, hrun, hstop, -⟩ := traverseWithin_ends_early 0 [halting] commented ()
  have hcalls : calls =
      (stateAfter (traverseWithin 0 (watchFrom 0 [halting]) commented ⟨(), []⟩)).calls := by
    rw [hrun]
    rfl
  -- A call before the walk, three in the block up to its comment, and the stop at its name.
  have hsplit : calls = calls.take 4 ++ .enter 0 (.leaf "name" "f")
      (.ok ((Node.leaf "name" "f").withField "entered", .stop)) :: calls.drop 5 := by
    rw [hcalls]
    rfl
  obtain ⟨-, walking, start, statements, last, -, -, hfrozen, hafter, -⟩ :=
    hstop _ _ _ _ _ hsplit
  exact ⟨start, walking, _, statements, last, hfrozen, hafter⟩

end Traversal

end Retouch
