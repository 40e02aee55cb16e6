/-!
# Failures

A hook of a codemod fails with a message, and whoever passes the failure on may put a message of its
own in front. A failure is the chain of these messages, the outermost first.
-/

namespace Retouch

/-- Why a hook failed: the outermost message and the messages behind it. -/
structure Failure where
  message : String
  causes : List String := []
deriving DecidableEq, Repr, Inhabited

namespace Failure

/-- A failure without causes. -/
def ofMessage (message : String) : Failure :=
  { message }

/-- Puts a message in front. -/
def context (failure : Failure) (message : String) : Failure :=
  { message, causes := failure.message :: failure.causes }

/-- All messages, the outermost first. -/
def chain (failure : Failure) : List String :=
  failure.message :: failure.causes

/-- All messages on one line. -/
def summary (failure : Failure) : String :=
  ": ".intercalate failure.chain

/-- The failure with the given messages, the innermost first. Without any message it is the empty
one. -/
def ofInnermost : List String → Failure
  | [] => ofMessage ""
  | cause :: contexts => contexts.foldl context (ofMessage cause)

/-- A context is the first message of the chain. -/
@[simp] theorem chain_context (failure : Failure) (message : String) :
    (failure.context message).chain = message :: failure.chain := rfl

end Failure

/-- An action of a hook: it may read and change a state of type `σ`, and it may fail. The state that
a failing action leaves behind is kept. -/
abbrev HookM (σ : Type) : Type → Type :=
  EStateM Failure σ

/-- Runs an action on a part of the state, and reports its error in the terms of the whole. -/
def focus {σ τ ε ε' α : Type} (get : σ → τ) (put : τ → σ → σ) (report : ε → ε')
    (action : EStateM ε τ α) : EStateM ε' σ α := fun state =>
  match action (get state) with
  | .ok value part => .ok value (put part state)
  | .error error part => .error (report error) (put part state)

end Retouch
