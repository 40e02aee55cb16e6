import Retouch.Codemod.Basic
import Retouch.Script.Edit

/-!
# Scripted visitors

A scripted visitor has rules for the nodes that it enters and rules for those that it leaves. Of the
rules that match a node, the first that applies changes the node and then decides what happens to
it. A rule may be limited to one of its matches: every rule has a counter for the nodes that it
matched, which lasts as long as the visitor.

A visitor that logs writes a note to the journal at the start of every hook.
-/

namespace Retouch.Script

/-- Which nodes a rule matches: those that agree with everything given. -/
structure Pattern where
  kind : Option String := none
  text : Option String := none
  field : Option String := none
  isLeaf : Option Bool := none
deriving DecidableEq, Repr, Inhabited

/-- Whether a node agrees with everything that a pattern gives. -/
def Pattern.accepts (pattern : Pattern) (node : Node) : Bool :=
  pattern.kind.all (· == node.kind) && pattern.text.all (fun text => node.text == some text) &&
    pattern.field.all (fun field => node.field == some field) &&
    pattern.isLeaf.all (· == node.isLeaf)

/-- How a rule changes a node: by a text, then another node in its place, then other children. -/
structure Change where
  text : Option String := none
  replacement : Option NodeSpec := none
  children : Option NodeSpec := none
deriving Repr, Inhabited

/-- The node after the change. Descriptions refer to the node as it was before, and one that asks
for a node that is not there changes nothing. -/
def Change.apply (change : Change) (node : Node) : Node :=
  let scope : Scope := { current := some node }
  let texted :=
    match change.text with
    | some text => node.setText text
    | none => node
  let replaced :=
    match change.replacement.bind (NodeSpec.buildOne? scope) with
    | some other => texted.replaceWith other
    | none => texted
  match change.children.bind (NodeSpec.build? scope) with
  | some children => { replaced with children }
  | none => replaced

/-- A rule: the nodes that it matches, the number of the match that it is limited to, the change,
and the decision. -/
structure Rule (Decision : Type) where
  pattern : Pattern := {}
  only : Option Nat := none
  change : Change := {}
  decision : Decision
deriving Inhabited

/-- What an entering rule decides. -/
inductive EnterDecision where
  | descend (descent : Descent)
  | fail
deriving DecidableEq, Repr, Inhabited

/-- What a leaving rule decides. -/
inductive LeaveDecision where
  | keep
  | remove
  | replace (nodes : NodeSpec)
  | fail
deriving Repr, Inhabited

/-- A scripted visitor. -/
structure VisitorScript where
  name : String
  logs : Bool := false
  before : List Edit := []
  after : List Edit := []
  enter : List (Rule EnterDecision) := []
  leave : List (Rule LeaveDecision) := []
deriving Inhabited

/-- The rules of a visitor, of which there are two lists. -/
inductive Phase where
  | enter
  | leave
deriving DecidableEq, Repr, Inhabited

/-- Which rule a counter belongs to: the number of the visitor, the list, and the place in the list.
-/
structure RuleId where
  visitor : Nat
  phase : Phase
  index : Nat
deriving DecidableEq, Repr, Inhabited

/-- The number of matches that each rule has had. -/
abbrev Counters := List (RuleId × Nat)

namespace Counters

/-- The matches that a rule has had. -/
def count (counters : Counters) (rule : RuleId) : Nat :=
  (counters.lookup rule).getD 0

/-- Counts another match of a rule. -/
def increment (counters : Counters) (rule : RuleId) : Counters :=
  (rule, counters.count rule + 1) :: counters.filter fun entry => entry.1 != rule

end Counters

/-- The first rule of a list that applies to a node, and the counters after all rules that were
tried. -/
def firstRule? {Decision : Type} (visitor : Nat) (phase : Phase) (node : Node) :
    Nat → List (Rule Decision) → Counters → Option (Rule Decision) × Counters
  | _, [], counters => (none, counters)
  | index, rule :: rest, counters =>
    if rule.pattern.accepts node then
      let id : RuleId := ⟨visitor, phase, index⟩
      let matched := counters.count id
      if rule.only.all (· == matched) then (some rule, counters.increment id)
      else firstRule? visitor phase node (index + 1) rest (counters.increment id)
    else firstRule? visitor phase node (index + 1) rest counters

namespace VisitorScript

/-- Writes a note, if the visitor logs. -/
def note (script : VisitorScript) (text : String) : HookM (HookState Counters) Unit := do
  if script.logs then reportEvent (.note (script.name ++ ":" ++ text))

/-- Applies edits to a tree in a hook. -/
def runEdits (edits : List Edit) (tree : Tree) : HookM (HookState Counters) Tree :=
  match Edit.applyAll {} edits tree with
  | .ok tree => pure tree
  | .error failure => throw failure

/-- Chooses the rule for a node and counts the matches. -/
def choose {Decision : Type} (visitor : Nat) (phase : Phase) (rules : List (Rule Decision))
    (node : Node) : HookM (HookState Counters) (Option (Rule Decision)) := do
  let state ← get
  let (rule, counters) := firstRule? visitor phase node 0 rules state.own
  set { state with own := counters }
  pure rule

/-- Enters a node. -/
def onEnter (script : VisitorScript) (number : Nat) (node : Node) :
    HookM (HookState Counters) (Node × Descent) := do
  script.note ("enter " ++ node.kind)
  match ← choose number .enter script.enter node with
  | none => pure (node, .into)
  | some rule => do
    let node := rule.change.apply node
    match rule.decision with
    | .descend descent => pure (node, descent)
    | .fail => throw (.ofMessage ("cannot enter " ++ node.kind))

/-- Leaves a node. -/
def onLeave (script : VisitorScript) (number : Nat) (node : Node) :
    HookM (HookState Counters) (Node × Verdict) := do
  script.note ("leave " ++ node.kind)
  match ← choose number .leave script.leave node with
  | none => pure (node, .keep)
  | some rule => do
    let node := rule.change.apply node
    match rule.decision with
    | .keep => pure (node, .keep)
    | .remove => pure (node, .remove)
    | .replace spec => pure (node, .replace ((spec.build? { current := some node }).getD []))
    | .fail => throw (.ofMessage ("cannot leave " ++ node.kind))

/-- The visitor of a script. The number tells its counters from those of other visitors. -/
def toVisitor (script : VisitorScript) (number : Nat) : Visitor (HookState Counters) where
  before tree := do
    script.note s!"before {tree.length}"
    runEdits script.before tree
  enter := script.onEnter number
  leave := script.onLeave number
  after tree := do
    script.note s!"after {tree.length}"
    runEdits script.after tree

/-- The visitors of some scripts, numbered from a given number on. -/
def toVisitors (first : Nat) (scripts : List VisitorScript) : List (Visitor (HookState Counters)) :=
  (scripts.zipIdx first).map fun (script, number) => script.toVisitor number

end VisitorScript

end Retouch.Script
