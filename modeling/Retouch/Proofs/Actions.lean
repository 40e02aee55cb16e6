import Retouch.Failure

/-!
# Actions that may fail

An action gives a value or fails, and leaves a state behind in both cases (`valueOf?`, `failureOf`,
`stateAfter`). Two properties of actions pass from the parts of an action to the whole:

* an action is *oblivious* if its value, and whether it fails, does not depend on the state
  (`Oblivious`);
* an action *keeps* a view of the state if that view is the same afterwards, whether the action
  fails or not (`Keeps`).

`ActionClass` is what the two have in common, so that whatever is put together from actions needs
only one proof for both.
-/

namespace Retouch

variable {ε ε' σ τ α β : Type}

/-- The state that an action leaves behind, whether it fails or not. -/
def stateAfter : EStateM.Result ε σ α → σ
  | .ok _ state => state
  | .error _ state => state

/-- The error that an action ends with. -/
def failureOf : EStateM.Result ε σ α → Option ε
  | .ok _ _ => none
  | .error error _ => some error

/-- The value that an action gives, if it does not fail. -/
def valueOf? : EStateM.Result ε σ α → Option α
  | .ok value _ => some value
  | .error _ _ => none

/-- An action with a value ends with it, in the state that it leaves behind. -/
theorem eq_ok_of_valueOf? {result : EStateM.Result ε σ α} {value : α}
    (h : valueOf? result = some value) : result = .ok value (stateAfter result) := by
  cases result with
  | ok given state =>
    cases h
    rfl
  | error error state => cases h

/-- An action with an error ends with it, in the state that it leaves behind. -/
theorem eq_error_of_failureOf {result : EStateM.Result ε σ α} {error : ε}
    (h : failureOf result = some error) : result = .error error (stateAfter result) := by
  cases result with
  | ok given state => cases h
  | error given state =>
    cases h
    rfl

/-- One action after the other, on a state. -/
theorem bind_apply (action : EStateM ε σ α) (next : α → EStateM ε σ β) (state : σ) :
    (action >>= next) state =
      match action state with
      | .ok value after => next value after
      | .error error after => .error error after := by
  show EStateM.bind action next state = _
  rw [EStateM.bind]
  cases action state <;> rfl

/-- After an action that gives a value, the rest goes on from that value. -/
theorem valueOf?_bind {action : EStateM ε σ α} {state : σ} {value : α}
    (h : valueOf? (action state) = some value) (next : α → EStateM ε σ β) :
    valueOf? ((action >>= next) state) = valueOf? (next value (stateAfter (action state))) := by
  rw [bind_apply, eq_ok_of_valueOf? h]
  rfl

/-- A change of the state does not fail, and leaves the changed state behind. -/
theorem modify_apply (change : σ → σ) (state : σ) :
    (modify change : EStateM ε σ PUnit) state = .ok ⟨⟩ (change state) :=
  rfl

/-- Looking at the state does not change it. -/
theorem get_apply (state : σ) : (get : EStateM ε σ σ) state = .ok state state :=
  rfl

/-- On a part of the state, an action gives what it gives on that part alone. -/
theorem valueOf?_focus (get : σ → τ) (put : τ → σ → σ) (report : ε → ε') (action : EStateM ε τ α)
    (state : σ) : valueOf? (focus get put report action state) = valueOf? (action (get state)) := by
  rw [focus]
  cases action (get state) <;> rfl

/-- The value of the action does not depend on the state. -/
def Oblivious (action : EStateM ε σ α) : Prop :=
  ∀ state state', valueOf? (action state) = valueOf? (action state')

namespace Oblivious

/-- A value that is given anyway is oblivious. -/
theorem pure (value : α) : Oblivious (pure value : EStateM ε σ α) :=
  fun _ _ => rfl

/-- An error that is raised anyway is oblivious. -/
theorem throw (error : ε) : Oblivious (throw error : EStateM ε σ α) :=
  fun _ _ => rfl

/-- A change of the state gives the same value in every state. -/
theorem modify (change : σ → σ) : Oblivious (modify change : EStateM ε σ PUnit) :=
  fun _ _ => rfl

/-- One oblivious action after the other is oblivious. -/
theorem bind {action : EStateM ε σ α} {next : α → EStateM ε σ β} (haction : Oblivious action)
    (hnext : ∀ value, Oblivious (next value)) : Oblivious (action >>= next) := by
  intro state state'
  have hsame := haction state state'
  rw [bind_apply, bind_apply]
  cases hfirst : action state with
  | ok value after =>
    rw [hfirst] at hsame
    rw [eq_ok_of_valueOf? hsame.symm]
    exact hnext value _ _
  | error error after =>
    rw [hfirst] at hsame
    cases hsecond : action state' with
    | ok value after' =>
      rw [hsecond] at hsame
      cases hsame
    | error error' after' => rfl

/-- An action on a part of the state is as oblivious as it is on that part. -/
theorem focus {get : σ → τ} {put : τ → σ → σ} {report : ε → ε'} {action : EStateM ε τ α}
    (h : Oblivious action) : Oblivious (focus get put report action) := by
  intro state state'
  rw [valueOf?_focus, valueOf?_focus]
  exact h (get state) (get state')

end Oblivious

/-- The action leaves a view of the state as it is, whether it fails or not. -/
def Keeps (view : σ → β) (action : EStateM ε σ α) : Prop :=
  ∀ state, view (stateAfter (action state)) = view state

namespace Keeps

variable {γ : Type} {view : σ → γ}

/-- A change of the state keeps a view that it does not alter. -/
theorem modify {change : σ → σ} (h : ∀ state, view (change state) = view state) :
    Keeps view (modify change : EStateM ε σ PUnit) :=
  h

/-- One action after the other keeps what both keep. -/
theorem bind {action : EStateM ε σ α} {next : α → EStateM ε σ β} (haction : Keeps view action)
    (hnext : ∀ value, Keeps view (next value)) : Keeps view (action >>= next) := by
  intro state
  have hfirst := haction state
  rw [bind_apply]
  cases hresult : action state with
  | ok value after =>
    rw [hresult] at hfirst
    exact (hnext value after).trans hfirst
  | error error after =>
    rw [hresult] at hfirst
    exact hfirst

/-- It does not matter in which terms an error is reported. -/
theorem report {action : EStateM ε σ α} (report : ε → ε') (h : Keeps view action) :
    Keeps view (focus id (fun state _ => state) report action) := by
  intro state
  have hsame := h state
  rw [focus]
  dsimp only [id]
  cases hresult : action state <;> rwa [hresult] at hsame

/-- An action on a part of the state keeps every view that does not see the part. -/
theorem focus {get : σ → τ} {put : τ → σ → σ} (h : ∀ part state, view (put part state) = view state)
    (report : ε → ε') (action : EStateM ε τ α) : Keeps view (focus get put report action) := by
  intro state
  rw [Retouch.focus]
  cases action (get state) <;> exact h _ state

end Keeps

/-- A class of actions with everything that is put together from its members. -/
structure ActionClass (σ : Type) where
  Holds : {ε α : Type} → EStateM ε σ α → Prop
  pure : ∀ {ε α : Type} (value : α), Holds (pure value : EStateM ε σ α)
  throw : ∀ {ε α : Type} (error : ε), Holds (throw error : EStateM ε σ α)
  bind : ∀ {ε α β : Type} {action : EStateM ε σ α} {next : α → EStateM ε σ β}, Holds action →
    (∀ value, Holds (next value)) → Holds (action >>= next)
  /-- The error may be put in other terms. -/
  report : ∀ {ε ε' α : Type} {action : EStateM ε σ α} (report : ε → ε'), Holds action →
    Holds (focus id (fun state _ => state) report action)

namespace ActionClass

/-- The oblivious actions. -/
def oblivious : ActionClass σ where
  Holds := Oblivious
  pure := .pure
  throw := .throw
  bind := .bind
  report _ := .focus

/-- The actions that keep a view. -/
def keeping (view : σ → β) : ActionClass σ where
  Holds := Keeps view
  pure _ _ := rfl
  throw _ _ := rfl
  bind := .bind
  report := .report

end ActionClass

end Retouch
