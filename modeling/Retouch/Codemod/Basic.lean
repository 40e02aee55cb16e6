import Retouch.Codemod.Context
import Retouch.Report.Journal
import Retouch.Traversal.Walk

/-!
# Codemods

A codemod is a transformation of trees with a fixed life cycle. It is set up once, and setting it up
gives a plan, a list of steps each of which is a walk over the tree with some visitors. Then for
every text it sees the tree before the first step and after the last one, with the context of the
text.

A codemod has a state of its own, of a type that it chooses, which its hooks and visitors share and
which lasts from one text to the next; all of them also write to the journal. `Codemod.prepare` does
the set-up and `Prepared.transform` the rest, so the order of the phases is not for a codemod to
choose.
-/

namespace Retouch

/-- What the hooks of a codemod see besides the tree: the state of the codemod and the journal. -/
structure HookState (σ : Type) where
  own : σ
  journal : Journal := {}

/-- Adds events to the journal. -/
def HookState.append {σ : Type} (state : HookState σ) (events : List Event) : HookState σ :=
  { state with journal := state.journal.append events }

/-- Reports an event. -/
def reportEvent {σ : Type} (event : Event) : HookM (HookState σ) Unit :=
  modify fun state => state.append [event]

/-- The walks that a codemod asks for, each with its visitors. -/
abbrev Plan (σ : Type) := List (List (Visitor (HookState σ)))

/-- The hooks of a codemod. Each hook that is not given does nothing. -/
structure Codemod (σ : Type) where
  setup : HookM (HookState σ) (Plan σ) := pure []
  before : Context → Tree → HookM (HookState σ) Tree := fun _ => pure
  after : Context → Tree → HookM (HookState σ) Tree := fun _ => pure

/-- A visitor with a state of its own as a visitor of a codemod with that state. -/
def Visitor.ofCodemod {σ : Type} (visitor : Visitor σ) : Visitor (HookState σ) :=
  visitor.focus HookState.own fun own state => { state with own }

/-- A codemod that is set up. -/
structure Prepared (σ : Type) where
  name : String
  /-- Where the codemod was loaded from. -/
  manifest : Path
  codemod : Codemod σ
  plan : Plan σ

namespace Codemod

/-- Sets a codemod up. -/
def prepare {σ : Type} (codemod : Codemod σ) (name : String) (manifest : Path) :
    EStateM RunError (HookState σ) (Prepared σ) := do
  let plan ← focus id (fun state _ => state) (RunError.codemodFailed none) codemod.setup
  pure { name, manifest, codemod, plan }

end Codemod

namespace Prepared

variable {σ : Type}

/-- Runs the steps of a plan on a tree, in order. -/
def runSteps : Plan σ → Tree → HookM (HookState σ) Tree
  | [], tree => pure tree
  | visitors :: steps, tree => do
    let tree ←
      focus id (fun state _ => state) WalkError.toFailure (Traversal.traverse visitors tree)
    runSteps steps tree

/-- Transforms a tree: the hook before, every step, the hook after. -/
def transform (prepared : Prepared σ) (context : Context) (tree : Tree) :
    HookM (HookState σ) Tree := do
  let tree ← prepared.codemod.before context tree
  let tree ← runSteps prepared.plan tree
  prepared.codemod.after context tree

end Prepared

/-- A codemod that was made from options, with its state before the set-up. The type of the state is
a matter of the codemod. -/
structure Instance where
  {State : Type}
  codemod : Codemod State
  initial : State

end Retouch
