import Retouch.Proofs.Actions
import Retouch.Traversal.Walk

/-!
# Watching a walk

What a walk does shows in the calls that it makes to the hooks of its visitors. A call tells which
visitor was called, what its hook was given, and what came of it (`Call`). To see the calls of a
walk, its visitors are watched (`watchFrom`): each hook does what it did, and then the call is noted
beside the state, which no hook can see.

Everything about calls is proved through `Shows`. It says that an action with watched visitors does
what the action does without the watch, and that the calls it notes and the outcome of the action
satisfy a predicate. Such statements are put together along the steps of an action (`Shows.bind`):
what is asked of the rest of an action is what is asked of the whole, once the calls of its first
step are put in front.
-/

namespace Retouch

namespace Traversal

variable {ε σ α β : Type}

/-! ### Calls -/

/-- A call to a hook of the visitor of the given number: what the hook was given, and its outcome.
-/
inductive Call where
  | before (visitor : Nat) (tree : Tree) (outcome : Except Failure Tree)
  | enter (visitor : Nat) (node : Node) (outcome : Except Failure (Node × Descent))
  | leave (visitor : Nat) (node : Node) (outcome : Except Failure (Node × Verdict))
  | after (visitor : Nat) (tree : Tree) (outcome : Except Failure Tree)

/-- The state of the visitors of a walk, and the calls to them that were noted. -/
structure Noted (σ : Type) where
  own : σ
  calls : List Call

/-- Does what a hook does, and notes the call. -/
def watch (call : Except Failure α → Call) (action : HookM σ α) : HookM (Noted σ) α := fun state =>
  match action state.own with
  | .ok value own => .ok value ⟨own, state.calls ++ [call (.ok value)]⟩
  | .error failure own => .error failure ⟨own, state.calls ++ [call (.error failure)]⟩

/-- A visitor whose calls are noted under a number. -/
def watched (number : Nat) (visitor : Visitor σ) : Visitor (Noted σ) where
  before tree := watch (.before number tree) (visitor.before tree)
  enter node := watch (.enter number node) (visitor.enter node)
  leave node := watch (.leave number node) (visitor.leave node)
  after tree := watch (.after number tree) (visitor.after tree)

/-- Visitors whose calls are noted, numbered from a given number on. -/
def watchFrom (number : Nat) : List (Visitor σ) → List (Visitor (Noted σ))
  | [] => []
  | visitor :: rest => watched number visitor :: watchFrom (number + 1) rest

/-! ### What an action shows -/

/-- What an action comes to, less the state that it leaves behind. -/
def ending : EStateM.Result ε σ α → Except ε α
  | .ok value _ => .ok value
  | .error error _ => .error error

/-- A result with calls beside the state that is left behind. -/
def noting (calls : List Call) : EStateM.Result ε σ α → EStateM.Result ε (Noted σ) α
  | .ok value own => .ok value ⟨own, calls⟩
  | .error error own => .error error ⟨own, calls⟩

/-- The watched action does what the plain one does, and the calls that it notes satisfy the
predicate together with the outcome. -/
def Shows (watched : EStateM ε (Noted σ) α) (plain : EStateM ε σ α)
    (post : List Call → Except ε α → Prop) : Prop :=
  ∀ own calls, ∃ more, watched ⟨own, calls⟩ = noting (calls ++ more) (plain own) ∧
    post more (ending (plain own))

/-- A result with a value ends in it. -/
theorem ending_of_valueOf? {result : EStateM.Result ε σ α} {value : α}
    (h : valueOf? result = some value) : ending result = .ok value := by
  rw [eq_ok_of_valueOf? h]
  rfl

/-- A result that ends in a value has it. -/
theorem valueOf?_of_ending {result : EStateM.Result ε σ α} {value : α}
    (h : ending result = .ok value) : valueOf? result = some value := by
  cases result with
  | ok given own =>
    cases h
    rfl
  | error error own => cases h

namespace Shows

variable {watched : EStateM ε (Noted σ) α} {plain : EStateM ε σ α}
  {post post' : List Call → Except ε α → Prop}

/-- What calls show can be weakened. -/
theorem mono (h : Shows watched plain post)
    (himp : ∀ calls outcome, post calls outcome → post' calls outcome) :
    Shows watched plain post' := by
  intro own calls
  obtain ⟨more, hrun, hpost⟩ := h own calls
  exact ⟨more, hrun, himp more _ hpost⟩

/-- A value is shown without a call. -/
theorem pure {value : α} (h : post [] (.ok value)) :
    Shows (pure value : EStateM ε (Noted σ) α) (pure value) post := by
  intro own calls
  refine ⟨[], ?_, h⟩
  rw [List.append_nil]
  rfl

/-- A failure is shown without a call. -/
theorem throw {error : ε} (h : post [] (.error error)) :
    Shows (throw error : EStateM ε (Noted σ) α) (throw error) post := by
  intro own calls
  refine ⟨[], ?_, h⟩
  rw [List.append_nil]
  rfl

/-- An action and what comes after it: either the action fails, or the rest adds its calls. -/
theorem bind {next : α → EStateM ε (Noted σ) β} {plainNext : α → EStateM ε σ β}
    {postAll : List Call → Except ε β → Prop} (h : Shows watched plain post)
    (herror : ∀ calls error, post calls (.error error) → postAll calls (.error error))
    (hok : ∀ calls value, post calls (.ok value) → Shows (next value) (plainNext value)
      fun more outcome => postAll (calls ++ more) outcome) :
    Shows (watched >>= next) (plain >>= plainNext) postAll := by
  intro own calls
  obtain ⟨first, hfirst, hpost⟩ := h own calls
  rw [bind_apply, bind_apply, hfirst]
  cases hplain : plain own with
  | error error left =>
    rw [hplain] at hpost
    exact ⟨first, rfl, herror first error hpost⟩
  | ok value left =>
    rw [hplain] at hpost
    obtain ⟨more, hmore, hall⟩ := hok first value hpost left (calls ++ first)
    refine ⟨first ++ more, ?_, hall⟩
    rw [← List.append_assoc]
    exact hmore

/-- A last step that only puts the value in another form. -/
theorem map {form : α → β} {postAll : List Call → Except ε β → Prop} (h : Shows watched plain post)
    (herror : ∀ calls error, post calls (.error error) → postAll calls (.error error))
    (hok : ∀ calls value, post calls (.ok value) → postAll calls (.ok (form value))) :
    Shows (watched >>= fun value => Pure.pure (form value))
      (plain >>= fun value => Pure.pure (form value)) postAll := by
  apply h.bind herror
  intro calls value hpost
  apply pure
  rw [List.append_nil]
  exact hok calls value hpost

/-- A hook as a part of a walk fails as it fails on its own. -/
theorem liftHook {watched : HookM (Noted σ) α} {plain : HookM σ α}
    {post : List Call → Except Failure α → Prop} (h : Shows watched plain post) :
    Shows (Traversal.liftHook watched) (Traversal.liftHook plain) fun calls outcome =>
      ∃ inner, outcome = inner.mapError WalkError.hook ∧ post calls inner := by
  intro own calls
  obtain ⟨more, hrun, hpost⟩ := h own calls
  refine ⟨more, ?_, ending (plain own), ?_, hpost⟩
  · unfold Traversal.liftHook focus
    dsimp only [id]
    rw [hrun]
    cases plain own <;> rfl
  · unfold Traversal.liftHook focus
    dsimp only [id]
    cases plain own <;> rfl

/-- A hook of a walk and what comes after it. -/
theorem bind_liftHook {watched : HookM (Noted σ) α} {plain : HookM σ α}
    {post : List Call → Except Failure α → Prop} {next : α → WalkM (Noted σ) β}
    {plainNext : α → WalkM σ β} {postAll : List Call → Except WalkError β → Prop}
    (h : Shows watched plain post)
    (herror : ∀ calls failure, post calls (.error failure) →
      postAll calls (.error (.hook failure)))
    (hok : ∀ calls value, post calls (.ok value) → Shows (next value) (plainNext value)
      fun more outcome => postAll (calls ++ more) outcome) :
    Shows (Traversal.liftHook watched >>= next) (Traversal.liftHook plain >>= plainNext)
      postAll := by
  apply h.liftHook.bind
  · rintro calls error ⟨inner, houtcome, hpost⟩
    cases inner with
    | ok value => cases houtcome
    | error failure =>
      cases houtcome
      exact herror calls failure hpost
  · rintro calls value ⟨inner, houtcome, hpost⟩
    cases inner with
    | ok given =>
      cases houtcome
      exact hok calls value hpost
    | error failure => cases houtcome

end Shows

/-! ### Actions that always come to the same -/

/-- The outcome is the value, and the calls are the noted ones. -/
def Exactly (value : α) (noted calls : List Call) (outcome : Except ε α) : Prop :=
  outcome = .ok value ∧ calls = noted

namespace Shows

variable {watched : EStateM ε (Noted σ) α} {plain : EStateM ε σ α} {value : α} {result : β}
  {noted first rest : List Call}

/-- A value comes to itself, without a call. -/
theorem pure_exactly (value : α) :
    Shows (Pure.pure value : EStateM ε (Noted σ) α) (Pure.pure value) (Exactly value []) :=
  pure ⟨rfl, rfl⟩

/-- Of two actions in a row, the calls of the first come before those of the second. -/
theorem bind_exactly {next : α → EStateM ε (Noted σ) β} {plainNext : α → EStateM ε σ β}
    (h : Shows watched plain (Exactly value first))
    (hnext : Shows (next value) (plainNext value) (Exactly result rest)) :
    Shows (watched >>= next) (plain >>= plainNext) (Exactly result (first ++ rest)) := by
  apply h.bind
  · rintro calls error ⟨hvalue, -⟩
    cases hvalue
  · rintro calls given ⟨hvalue, rfl⟩
    cases hvalue
    apply hnext.mono
    rintro more outcome ⟨houtcome, rfl⟩
    exact ⟨houtcome, rfl⟩

/-- The calls stay the same if the value is put into another form. -/
theorem map_exactly (h : Shows watched plain (Exactly value noted)) (form : α → β) :
    Shows (watched >>= fun given => Pure.pure (form given))
      (plain >>= fun given => Pure.pure (form given)) (Exactly (form value) noted) := by
  rw [← List.append_nil noted]
  exact h.bind_exactly (pure_exactly (form value))

/-- A hook comes to the same as a step of a walk. -/
theorem liftHook_exactly {watched : HookM (Noted σ) α} {plain : HookM σ α}
    (h : Shows watched plain (Exactly value noted)) :
    Shows (Traversal.liftHook watched) (Traversal.liftHook plain) (Exactly value noted) := by
  apply h.liftHook.mono
  rintro calls outcome ⟨inner, rfl, rfl, hcalls⟩
  exact ⟨rfl, hcalls⟩

/-- Such an action gives the value, and from no calls on it leaves exactly the noted ones behind. -/
theorem run_exactly (h : Shows watched plain (Exactly value noted)) (own : σ) :
    ∃ left, plain own = .ok value left ∧ watched ⟨own, []⟩ = .ok value ⟨left, noted⟩ := by
  obtain ⟨more, hrun, hvalue, rfl⟩ := h own []
  have hplain := eq_ok_of_valueOf? (valueOf?_of_ending hvalue)
  refine ⟨_, hplain, ?_⟩
  rw [hrun, hplain]
  rfl

end Shows

/-! ### Hooks -/

/-- A hook that is watched shows one call, with the outcome that the hook has in some state. -/
theorem shows_watch (call : Except Failure α → Call) (action : HookM σ α) :
    Shows (watch call action) action fun calls outcome =>
      calls = [call outcome] ∧ ∃ own, ending (action own) = outcome := by
  intro own calls
  refine ⟨[call (ending (action own))], ?_, rfl, own, rfl⟩
  unfold watch
  cases action own <;> rfl

/-- A hook that gives the same in every state shows that. -/
theorem shows_watch_of_value {action : HookM σ α} {value : α}
    (h : ∀ own, valueOf? (action own) = some value) (call : Except Failure α → Call) :
    Shows (watch call action) action (Exactly value [call (.ok value)]) := by
  apply (shows_watch call action).mono
  rintro calls outcome ⟨rfl, own, rfl⟩
  rw [ending_of_valueOf? (h own)]
  exact ⟨rfl, rfl⟩

/-! ### Hooks on trees that do nothing -/

/-- In every state, the hooks on trees give back the tree that they get. -/
structure Unchanging (visitor : Visitor σ) : Prop where
  before : ∀ tree own, valueOf? (visitor.before tree own) = some tree
  after : ∀ tree own, valueOf? (visitor.after tree own) = some tree

/-- The calls to hooks that are all given a tree and give it back. -/
def idleCalls (call : Nat → Tree → Except Failure Tree → Call) (number count : Nat) (tree : Tree) :
    List Call :=
  (List.range' number count).map fun visitor => call visitor tree (.ok tree)

/-- Hooks that give back the tree are all called on it, in order. -/
theorem shows_onTree_of_unchanging {hook : {σ : Type} → Visitor σ → Tree → HookM σ Tree}
    {call : Nat → Tree → Except Failure Tree → Call} {visitors : List (Visitor σ)} {tree : Tree}
    (hwatch : ∀ number (visitor : Visitor σ), hook (watched number visitor) tree =
      watch (call number tree) (hook visitor tree))
    (h : ∀ visitor ∈ visitors, ∀ own, valueOf? (hook visitor tree own) = some tree) (number : Nat) :
    Shows (onTree hook (watchFrom number visitors) tree) (onTree hook visitors tree)
      (Exactly tree (idleCalls call number visitors.length tree)) := by
  induction visitors generalizing number with
  | nil => exact .pure_exactly tree
  | cons visitor rest ih =>
    have hfirst := shows_watch_of_value (h visitor List.mem_cons_self) (call number tree)
    have hrest := ih (fun other hother => h other (List.mem_cons_of_mem _ hother)) (number + 1)
    rw [← hwatch] at hfirst
    exact hfirst.bind_exactly hrest

/-- A walk between hooks that do nothing. -/
theorem shows_traverseWithin_of_unchanging {visitors : List (Visitor σ)} {tree : Tree}
    {walked : Walked} {visits : List Call} (h : ∀ visitor ∈ visitors, Unchanging visitor)
    (levels : Nat)
    (hwalk : Shows
      (walkList (walkNode (watchFrom 0 visitors) (tree.depth + levels)) tree.statements)
      (walkList (walkNode visitors (tree.depth + levels)) tree.statements)
      (Exactly walked visits)) :
    Shows (traverseWithin levels (watchFrom 0 visitors) tree) (traverseWithin levels visitors tree)
      (Exactly ⟨walked.nodes⟩ (idleCalls .before 0 visitors.length tree ++
        (visits ++ idleCalls .after 0 visitors.length ⟨walked.nodes⟩))) := by
  have hbefore : Shows (onTree Visitor.before (watchFrom 0 visitors) tree)
      (onTree Visitor.before visitors tree)
      (Exactly tree (idleCalls .before 0 visitors.length tree)) :=
    shows_onTree_of_unchanging (fun _ _ => rfl)
      (fun visitor hvisitor => (h visitor hvisitor).before tree) 0
  have hafter : Shows (onTree Visitor.after (watchFrom 0 visitors) ⟨walked.nodes⟩)
      (onTree Visitor.after visitors ⟨walked.nodes⟩)
      (Exactly ⟨walked.nodes⟩ (idleCalls .after 0 visitors.length ⟨walked.nodes⟩)) :=
    shows_onTree_of_unchanging (fun _ _ => rfl)
      (fun visitor hvisitor => (h visitor hvisitor).after ⟨walked.nodes⟩) 0
  exact hbefore.liftHook_exactly.bind_exactly (hwalk.bind_exactly hafter.liftHook_exactly)

end Traversal

end Retouch
