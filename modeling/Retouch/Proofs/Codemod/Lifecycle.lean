import Mathlib.Data.List.Forall2
import Retouch.Proofs.Codemod.Embedding

/-!
# The life cycle of a codemod

A codemod is set up once. Then it takes one text after the other, and its state goes from each of
them to the next. This file says which of its hooks are called in such a life, in which order, and
with which contexts, for every codemod and for texts of all kinds.

The phases of a text are the hook before, the steps in the order in which they were registered, and
the hook after (`Prepared.phases`). `TextCall` says what one text comes to: a text that does not fit
the grammar calls nothing, and any other text calls the phases, up to the first one that fails.
`Lifetime` is a sequence of such texts.

To see the calls, a codemod is watched (`Codemod.watched`): each hook notes that it was called, and
with which context, before it does what it did, and each step gets one more visitor, which notes
that the step has begun. The notes are kept beside the state of the codemod, which neither knows nor
changes them.

* **Failures name the input** (`Lifetime.forall₂_namesInput`): the error that a text ends with is
  about the file that the context of the text has as its attribute `Context.inputName`.
* **The calls of a life are those of its texts** (`watched_lifecycle`), after the one call that set
  the codemod up. The results are those of the codemod without the watch. After every text, the
  context is forgotten.
-/

namespace Retouch

variable {σ : Type}

/-! ### Phases -/

/-- A call to a codemod: to one of its hooks, with the context if the hook gets one, or to one of
the steps that it registered. -/
inductive HookCall where
  | setup
  | before (context : Context)
  | step (index : Nat)
  | after (context : Context)
deriving DecidableEq, Repr

/-- What a codemod does with a tree in one call. -/
abbrev Phase (σ : Type) := HookCall × (Tree → HookM (HookState σ) Tree)

/-- Takes a tree through phases, one after the other. -/
def runPhases : List (Phase σ) → Tree → HookM (HookState σ) Tree
  | [], tree => pure tree
  | phase :: rest, tree => do
    let tree ← phase.2 tree
    runPhases rest tree

/-- A step of a plan. -/
def walkOnce (visitors : List (Visitor (HookState σ))) (tree : Tree) : HookM (HookState σ) Tree :=
  focus id (fun state _ => state) WalkError.toFailure (Traversal.traverse visitors tree)

/-- The phases of a text. -/
def Prepared.phases (prepared : Prepared σ) (context : Context) : List (Phase σ) :=
  (.before context, prepared.codemod.before context) ::
    (prepared.plan.mapIdx (fun index visitors => (.step index, walkOnce visitors)) ++
      [(.after context, prepared.codemod.after context)])

/-- Phases and then more phases are run one after the other. -/
theorem runPhases_append (phases more : List (Phase σ)) (tree : Tree) :
    runPhases (phases ++ more) tree = runPhases phases tree >>= runPhases more := by
  induction phases generalizing tree with
  | nil => rfl
  | cons phase rest ih =>
    rw [List.cons_append, runPhases, runPhases, bind_assoc]
    exact congrArg _ (funext ih)

/-- The steps of a plan are phases, whatever calls they are taken for. -/
theorem runPhases_mapIdx (call : Nat → HookCall) (plan : Plan σ) (tree : Tree) :
    runPhases (plan.mapIdx fun index visitors => (call index, walkOnce visitors)) tree =
      Prepared.runSteps plan tree := by
  induction plan generalizing call tree with
  | nil => rfl
  | cons visitors steps ih =>
    rw [List.mapIdx_cons, runPhases, Prepared.runSteps]
    exact congrArg _ (funext (ih _))

/-- To transform a tree is to take it through the phases. -/
theorem Prepared.transform_eq (prepared : Prepared σ) (context : Context) (tree : Tree) :
    prepared.transform context tree = runPhases (prepared.phases context) tree := by
  rw [transform, phases, runPhases]
  refine congrArg _ (funext fun tree => ?_)
  rw [runPhases_append, runPhases_mapIdx]
  refine congrArg _ (funext fun tree => ?_)
  rw [runPhases]
  exact (bind_pure _).symm

/-! ### Watching -/

/-- The state of a codemod and the calls that were noted. -/
structure Watched (σ : Type) where
  own : σ
  calls : List HookCall

namespace HookState

/-- A state with calls beside it. -/
def watched (state : HookState σ) (calls : List HookCall) : HookState (Watched σ) :=
  ⟨⟨state.own, calls⟩, state.journal⟩

/-- The state without the calls. -/
def unwatched (state : HookState (Watched σ)) : HookState σ :=
  ⟨state.own.own, state.journal⟩

/-- Another state with the same calls. -/
def update (part : HookState σ) (state : HookState (Watched σ)) : HookState (Watched σ) :=
  part.watched state.own.calls

/-- The calls beside a state can be taken away again. -/
@[simp] theorem unwatched_watched (state : HookState σ) (calls : List HookCall) :
    (state.watched calls).unwatched = state :=
  rfl

/-- The state of a codemod is a part of the state with the calls. -/
theorem isPart_unwatched :
    IsPart (unwatched : HookState (Watched σ) → HookState σ) update :=
  ⟨fun _ _ => rfl, fun _ => rfl, fun _ _ _ => rfl⟩

end HookState

/-- Notes a call. -/
def note (call : HookCall) : HookM (HookState (Watched σ)) Unit :=
  modify fun state => state.unwatched.watched (state.own.calls ++ [call])

/-- Does what a codemod does, with the calls left alone. -/
def unnoted {α : Type} (action : HookM (HookState σ) α) : HookM (HookState (Watched σ)) α :=
  focus HookState.unwatched HookState.update id action

/-- A visitor that notes a call when its walk begins. -/
def announcer (call : HookCall) : Visitor (HookState (Watched σ)) where
  before tree := do
    note call
    pure tree

/-- A plan whose steps note that they begin. -/
def Plan.watched (plan : Plan σ) : Plan (Watched σ) :=
  plan.mapIdx fun index visitors =>
    announcer (.step index) :: visitors.map (Visitor.focus HookState.unwatched HookState.update)

/-- A phase that notes its call. -/
def Phase.watched (phase : Phase σ) : Phase (Watched σ) :=
  (phase.1, fun tree => do
    note phase.1
    unnoted (phase.2 tree))

/-- A codemod that notes the calls to it. -/
def Codemod.watched (codemod : Codemod σ) : Codemod (Watched σ) where
  setup := do
    note .setup
    let plan ← unnoted codemod.setup
    pure plan.watched
  before context := (Phase.watched (.before context, codemod.before context)).2
  after context := (Phase.watched (.after context, codemod.after context)).2

/-- A codemod that is set up, watched from there on. -/
def Prepared.watched (prepared : Prepared σ) : Prepared (Watched σ) where
  name := prepared.name
  manifest := prepared.manifest
  codemod := prepared.codemod.watched
  plan := prepared.plan.watched

/-- A call that is noted comes after those that were noted before. -/
theorem note_apply (call : HookCall) (state : HookState σ) (calls : List HookCall) :
    note call (state.watched calls) = .ok () (state.watched (calls ++ [call])) :=
  rfl

/-- A result with calls beside the state that is left behind. -/
def withCalls {α : Type} (calls : List HookCall) :
    EStateM.Result Failure (HookState σ) α → EStateM.Result Failure (HookState (Watched σ)) α
  | .ok value left => .ok value (left.watched calls)
  | .error failure left => .error failure (left.watched calls)

/-- What a codemod does leaves the calls beside its state alone. -/
theorem unnoted_apply {α : Type} (action : HookM (HookState σ) α) (state : HookState σ)
    (calls : List HookCall) :
    unnoted action (state.watched calls) = withCalls calls (action state) := by
  rw [unnoted, focus, HookState.unwatched_watched]
  cases action state <;> rfl

/-- A phase that is watched notes its call, and does what it did. -/
theorem Phase.watched_apply (phase : Phase σ) (tree : Tree) (state : HookState σ)
    (calls : List HookCall) :
    phase.watched.2 tree (state.watched calls) =
      withCalls (calls ++ [phase.1]) (phase.2 tree state) := by
  show (note phase.1 >>= fun _ => unnoted (phase.2 tree)) (state.watched calls) = _
  rw [bind_apply, note_apply]
  exact unnoted_apply (phase.2 tree) state (calls ++ [phase.1])

/-- The announcer notes its call before the walk and takes no part in it. -/
theorem traverse_announcer (call : HookCall) (visitors : List (Visitor (HookState (Watched σ))))
    (tree : Tree) :
    Traversal.traverse (announcer call :: visitors) tree =
      Traversal.liftHook (note call) >>= fun _ => Traversal.traverse visitors tree := by
  have hbefore : Traversal.onTree Visitor.before (announcer call :: visitors) tree =
      note call >>= fun _ => Traversal.onTree Visitor.before visitors tree := by
    rw [Traversal.onTree, announcer, bind_assoc]
    rfl
  have hafter : Traversal.onTree Visitor.after (announcer call :: visitors) =
      Traversal.onTree Visitor.after visitors := rfl
  have hwalk : ∀ limit, Traversal.walkNode (announcer call :: visitors) limit =
      Traversal.walkNode visitors limit := Traversal.walkNode_cons rfl rfl visitors
  simp only [Traversal.traverse, Traversal.traverseWithin, hbefore, hafter, hwalk,
    Traversal.liftHook, focus_bind isPart_id, bind_assoc]

/-- A step with an announcer notes its call and is otherwise the same. -/
theorem walkOnce_announcer (call : HookCall) (visitors : List (Visitor (HookState σ))) :
    walkOnce (announcer call ::
      visitors.map (Visitor.focus HookState.unwatched HookState.update)) =
      (Phase.watched (call, walkOnce visitors)).2 := by
  funext tree
  rw [walkOnce, traverse_announcer, focus_bind isPart_id,
    Traversal.traverse_focus HookState.isPart_unwatched, focus_id_focus]
  rfl

/-- The phases of a codemod that is watched are its phases, watched. -/
theorem Prepared.phases_watched (prepared : Prepared σ) (context : Context) :
    prepared.watched.phases context = (prepared.phases context).map Phase.watched := by
  have hsteps : (prepared.plan.watched.mapIdx
      fun index visitors => ((.step index, walkOnce visitors) : Phase (Watched σ))) =
      (prepared.plan.mapIdx
        fun index visitors => ((.step index, walkOnce visitors) : Phase σ)).map Phase.watched := by
    rw [Plan.watched, List.mapIdx_mapIdx, List.mapIdx_eq_zipIdx_map, List.mapIdx_eq_zipIdx_map,
      List.map_map]
    refine List.map_congr_left fun item _ => ?_
    exact congrArg (Prod.mk _) (walkOnce_announcer _ _)
  rw [phases, phases, List.map_cons, List.map_append, ← hsteps]
  rfl

/-- The calls of phases, up to the first failure. -/
def callsOf : List (Phase σ) → Tree → HookState σ → List HookCall
  | [], _, _ => []
  | phase :: rest, tree, state =>
    phase.1 ::
      match phase.2 tree state with
      | .ok result left => callsOf rest result left
      | .error _ _ => []

/-- Phases that are watched note their calls up to the first failure, and do what they did. -/
theorem runPhases_watched (phases : List (Phase σ)) (tree : Tree) (state : HookState σ)
    (calls : List HookCall) :
    runPhases (phases.map Phase.watched) tree (state.watched calls) =
      withCalls (calls ++ callsOf phases tree state) (runPhases phases tree state) := by
  induction phases generalizing tree state calls with
  | nil =>
    rw [callsOf, List.append_nil]
    rfl
  | cons phase rest ih =>
    rw [List.map_cons, runPhases, runPhases, bind_apply, bind_apply, Phase.watched_apply, callsOf]
    cases phase.2 tree state with
    | error failure left => rfl
    | ok result left =>
      have hrest := ih result left (calls ++ [phase.1])
      rw [List.append_assoc] at hrest
      exact hrest

/-- Phases that do not fail are all called. -/
theorem callsOf_of_ok {phases : List (Phase σ)} {tree result : Tree} {state left : HookState σ}
    (h : runPhases phases tree state = .ok result left) :
    callsOf phases tree state = phases.map Prod.fst := by
  induction phases generalizing tree state with
  | nil => rfl
  | cons phase rest ih =>
    rw [runPhases, bind_apply] at h
    rw [callsOf, List.map_cons]
    cases hphase : phase.2 tree state with
    | error failure left =>
      rw [hphase] at h
      cases h
    | ok middle now =>
      rw [hphase] at h
      exact congrArg _ (ih h)

/-- Phases that fail do so in one of them, which is the last that is called. -/
theorem exists_of_runPhases_error {phases : List (Phase σ)} {tree : Tree} {state left : HookState σ}
    {failure : Failure} (h : runPhases phases tree state = .error failure left) :
    ∃ passed phase rest middle now, phases = passed ++ phase :: rest ∧
      runPhases passed tree state = .ok middle now ∧ phase.2 middle now = .error failure left ∧
      callsOf phases tree state = (passed ++ [phase]).map Prod.fst := by
  induction phases generalizing tree state with
  | nil => cases h
  | cons phase rest ih =>
    rw [runPhases, bind_apply] at h
    rw [callsOf]
    cases hphase : phase.2 tree state with
    | error failure' left' =>
      rw [hphase] at h
      cases h
      exact ⟨[], phase, rest, tree, state, rfl, rfl, hphase, rfl⟩
    | ok result now =>
      rw [hphase] at h
      obtain ⟨passed, stop, later, middle, last, rfl, hpassed, hstop, hcalls⟩ := ih h
      refine ⟨phase :: passed, stop, later, middle, last, rfl, ?_, hstop, ?_⟩
      · rw [runPhases, bind_apply, hphase]
        exact hpassed
      · exact congrArg (phase.1 :: ·) hcalls

/-! ### Texts -/

/-- What one text comes to: the calls, the outcome, and the codemod afterwards. -/
inductive TextCall (grammar : Grammar) (prepared : Prepared σ) (text : String)
    (context : Option Context) (live : Live σ) :
    List HookCall → Except RunError String → Live σ → Prop
  | unread {fault : SyntaxFault} (hparse : grammar.parse text = .error fault) :
      TextCall grammar prepared text context live []
        (.error (.syntaxFault (context.bind Context.inputFile?) fault)) live
  | failed {parsed : Parsed} {passed rest : List (Phase σ)} {phase : Phase σ} {tree : Tree}
      {hooks left : HookState σ} {failure : Failure} (hparse : grammar.parse text = .ok parsed)
      (hphases : prepared.phases (context.getD .empty) = passed ++ phase :: rest)
      (hpassed : runPhases passed parsed.tree ⟨live.own, live.journal⟩ = .ok tree hooks)
      (hfailed : phase.2 tree hooks = .error failure left) :
      TextCall grammar prepared text context live ((passed ++ [phase]).map Prod.fst)
        (.error (.codemodFailed (context.bind Context.inputFile?) failure))
        ⟨left.own, .empty, left.journal⟩
  | passed {parsed : Parsed} {tree : Tree} {left : HookState σ}
      (hparse : grammar.parse text = .ok parsed)
      (hpassed : runPhases (prepared.phases (context.getD .empty)) parsed.tree
        ⟨live.own, live.journal⟩ = .ok tree left) :
      TextCall grammar prepared text context live
        ((prepared.phases (context.getD .empty)).map Prod.fst) (.ok (parsed.print tree))
        ⟨left.own, .empty, left.journal⟩

/-- What an action comes to, as a value. -/
def outcomeOf {ε τ α : Type} : EStateM.Result ε τ α → Except ε α × τ
  | .ok value state => (.ok value, state)
  | .error error state => (.error error, state)

/-- A codemod in use with calls beside its state. -/
def Live.watched (live : Live σ) (calls : List HookCall) : Live (Watched σ) :=
  ⟨⟨live.own, calls⟩, live.context, live.journal⟩

/-- A text that fits the grammar goes through the phases of its context. -/
theorem outcomeOf_onText {grammar : Grammar} {text : String} {parsed : Parsed}
    (hparse : grammar.parse text = .ok parsed) (ownExtensions : Option (List String))
    (prepared : Prepared σ) (context : Option Context) (live : Live σ) :
    outcomeOf (Transformer.onText ⟨grammar, some prepared, ownExtensions⟩ text context live) =
      match runPhases (prepared.phases (context.getD .empty)) parsed.tree
        ⟨live.own, live.journal⟩ with
      | .ok tree left => (.ok (parsed.print tree), ⟨left.own, .empty, left.journal⟩)
      | .error failure left =>
        (.error (.codemodFailed (context.bind Context.inputFile?) failure),
          ⟨left.own, .empty, left.journal⟩) := by
  rw [← Prepared.transform_eq, Transformer.onText]
  simp only [hparse, bind_apply, Transformer.transformTree]
  cases prepared.transform (context.getD .empty) parsed.tree ⟨live.own, live.journal⟩ <;> rfl

/-- One text, with and without the watch. -/
theorem textCall_onText (grammar : Grammar) (ownExtensions : Option (List String))
    (prepared : Prepared σ) (text : String) (context : Option Context) (live : Live σ)
    (calls : List HookCall) :
    ∃ more outcome left, TextCall grammar prepared text context live more outcome left ∧
      outcomeOf (Transformer.onText ⟨grammar, some prepared, ownExtensions⟩ text context live) =
        (outcome, left) ∧
      outcomeOf (Transformer.onText ⟨grammar, some prepared.watched, ownExtensions⟩ text context
        (live.watched calls)) = (outcome, left.watched (calls ++ more)) := by
  cases hparse : grammar.parse text with
  | error fault =>
    refine ⟨[], _, live, .unread hparse, ?_, ?_⟩
    · rw [Transformer.onText]
      simp only [hparse]
      rfl
    · rw [Transformer.onText, List.append_nil]
      simp only [hparse]
      rfl
  | ok parsed =>
    have hwatched := runPhases_watched (prepared.phases (context.getD .empty)) parsed.tree
      ⟨live.own, live.journal⟩ calls
    rw [← Prepared.phases_watched] at hwatched
    rw [outcomeOf_onText hparse, outcomeOf_onText hparse]
    cases hrun : runPhases (prepared.phases (context.getD .empty)) parsed.tree
        ⟨live.own, live.journal⟩ with
    | ok tree left =>
      rw [hrun, callsOf_of_ok hrun] at hwatched
      refine ⟨_, _, _, .passed hparse hrun, rfl, ?_⟩
      rw [show runPhases _ _ ⟨(live.watched calls).own, (live.watched calls).journal⟩ = _ from
        hwatched]
      rfl
    | error failure left =>
      obtain ⟨passed, phase, rest, middle, now, hphases, hpassed, hfailed, hcalls⟩ :=
        exists_of_runPhases_error hrun
      rw [hrun, hcalls] at hwatched
      refine ⟨_, _, _, .failed hparse hphases hpassed hfailed, rfl, ?_⟩
      rw [show runPhases _ _ ⟨(live.watched calls).own, (live.watched calls).journal⟩ = _ from
        hwatched]
      rfl

/-! ### Histories -/

/-- Transforms texts one after the other, whatever becomes of each of them. -/
def Transformer.onTexts (transformer : Transformer σ) :
    List (String × Option Context) → Live σ → List (Except RunError String) × Live σ
  | [], live => ([], live)
  | (text, context) :: rest, live =>
    let (outcome, left) := outcomeOf (transformer.onText text context live)
    let (outcomes, last) := transformer.onTexts rest left
    (outcome :: outcomes, last)

/-- What a sequence of texts comes to. The codemod is handed on from each text to the next. -/
inductive Lifetime (grammar : Grammar) (prepared : Prepared σ) :
    List (String × Option Context) → Live σ → List HookCall → List (Except RunError String) →
      Live σ → Prop
  | nil (live : Live σ) : Lifetime grammar prepared [] live [] [] live
  | cons {text : String} {context : Option Context} {rest : List (String × Option Context)}
      {live left last : Live σ} {calls more : List HookCall} {outcome : Except RunError String}
      {outcomes : List (Except RunError String)}
      (htext : TextCall grammar prepared text context live calls outcome left)
      (hrest : Lifetime grammar prepared rest left more outcomes last) :
      Lifetime grammar prepared ((text, context) :: rest) live (calls ++ more)
        (outcome :: outcomes) last

/-- After a text, the context is forgotten, if there was none before it. -/
theorem TextCall.context_eq {grammar : Grammar} {prepared : Prepared σ} {text : String}
    {context : Option Context} {live left : Live σ} {calls : List HookCall}
    {outcome : Except RunError String} (hempty : live.context = .empty)
    (h : TextCall grammar prepared text context live calls outcome left) :
    left.context = .empty := by
  cases h with
  | unread => exact hempty
  | failed => rfl
  | passed => rfl

/-- After every text, the context is forgotten. -/
theorem Lifetime.context_eq {grammar : Grammar} {prepared : Prepared σ}
    {texts : List (String × Option Context)} {live last : Live σ} {calls : List HookCall}
    {outcomes : List (Except RunError String)}
    (h : Lifetime grammar prepared texts live calls outcomes last)
    (hempty : live.context = .empty) : last.context = .empty := by
  induction h with
  | nil => exact hempty
  | cons htext _ ih => exact ih (htext.context_eq hempty)

/-- If the outcome of a text is an error, then it is about the file that the context of the text
names as its input, and about no file if the context names none. -/
def NamesInput (item : String × Option Context) (outcome : Except RunError String) : Prop :=
  ∀ error, outcome = .error error →
    ∀ path, error.file? = some path ↔
      ∃ context, item.2 = some context ∧ context.get? Context.inputName = some path.raw

/-- The input of a context that may not be there, by its attribute. -/
theorem bind_inputFile?_eq_some_iff {context : Option Context} {path : Path} :
    context.bind Context.inputFile? = some path ↔
      ∃ given, context = some given ∧ given.get? Context.inputName = some path.raw := by
  rw [Option.bind_eq_some_iff]
  exact exists_congr fun given => and_congr_right fun _ => Context.inputFile?_eq_some_iff

/-- A text that ends with an error names the input. -/
theorem TextCall.namesInput {grammar : Grammar} {prepared : Prepared σ} {text : String}
    {context : Option Context} {live left : Live σ} {calls : List HookCall}
    {outcome : Except RunError String}
    (h : TextCall grammar prepared text context live calls outcome left) :
    NamesInput (text, context) outcome := by
  intro error herror path
  cases h with
  | unread =>
    cases herror
    exact bind_inputFile?_eq_some_iff
  | failed =>
    cases herror
    exact bind_inputFile?_eq_some_iff
  | passed => cases herror

/-- Each text of a life that ends with an error names its own input. -/
theorem Lifetime.forall₂_namesInput {grammar : Grammar} {prepared : Prepared σ}
    {texts : List (String × Option Context)} {live last : Live σ} {calls : List HookCall}
    {outcomes : List (Except RunError String)}
    (h : Lifetime grammar prepared texts live calls outcomes last) :
    List.Forall₂ NamesInput texts outcomes := by
  induction h with
  | nil => exact .nil
  | cons htext _ ih => exact .cons htext.namesInput ih

/-- Every sequence of texts is a life of the codemod, with and without the watch. -/
theorem lifetime_onTexts (grammar : Grammar) (ownExtensions : Option (List String))
    (prepared : Prepared σ) (texts : List (String × Option Context)) (live : Live σ)
    (calls : List HookCall) :
    ∃ more outcomes last, Lifetime grammar prepared texts live more outcomes last ∧
      Transformer.onTexts ⟨grammar, some prepared, ownExtensions⟩ texts live = (outcomes, last) ∧
      Transformer.onTexts ⟨grammar, some prepared.watched, ownExtensions⟩ texts
        (live.watched calls) = (outcomes, last.watched (calls ++ more)) := by
  induction texts generalizing live calls with
  | nil =>
    refine ⟨[], [], live, .nil live, rfl, ?_⟩
    rw [List.append_nil]
    rfl
  | cons item rest ih =>
    obtain ⟨text, context⟩ := item
    obtain ⟨noted, outcome, left, htext, hplain, hwatched⟩ :=
      textCall_onText grammar ownExtensions prepared text context live calls
    obtain ⟨more, outcomes, last, hrest, hplainRest, hwatchedRest⟩ := ih left (calls ++ noted)
    refine ⟨noted ++ more, outcome :: outcomes, last, .cons htext hrest, ?_, ?_⟩
    · rw [Transformer.onTexts, hplain]
      dsimp only
      rw [hplainRest]
    · rw [Transformer.onTexts, hwatched]
      dsimp only
      rw [hwatchedRest, List.append_assoc]

/-- A codemod is set up by its hook, whose failure is not about a file. -/
theorem Codemod.prepare_apply (codemod : Codemod σ) (name : String) (manifest : Path)
    (start : HookState σ) :
    codemod.prepare name manifest start =
      match codemod.setup start with
      | .ok plan left => .ok { name, manifest, codemod, plan } left
      | .error failure left => .error (.codemodFailed none failure) left := by
  rw [prepare, bind_apply, focus]
  dsimp only [id]
  cases codemod.setup start <;> rfl

/-- Setting up a codemod that is watched is noted as one call. -/
theorem Codemod.setup_watched (codemod : Codemod σ) (start : HookState σ) :
    codemod.watched.setup (start.watched []) =
      match codemod.setup start with
      | .ok plan left => .ok (Plan.watched plan) (left.watched [.setup])
      | .error failure left => .error failure (left.watched [.setup]) := by
  rw [watched]
  dsimp only
  rw [bind_apply, note_apply]
  dsimp only
  rw [bind_apply, List.nil_append, unnoted_apply]
  cases codemod.setup start <;> rfl

/-- A codemod is set up by one call. If that fails, the error names no file. Otherwise every
sequence of texts is a life of the codemod: each text that fits the grammar calls the hook before,
the steps and the hook after, up to the first failure, and the hooks get the context of that text.
The context is forgotten after the text, and a failure names the input of the context, which is its
attribute `Context.inputName`. The watch shows these calls and changes nothing else. -/
theorem watched_lifecycle (codemod : Codemod σ) (name : String) (manifest : Path)
    (grammar : Grammar) (ownExtensions : Option (List String)) (start : HookState σ)
    (texts : List (String × Option Context)) :
    (∃ failure left,
      codemod.prepare name manifest start = .error (.codemodFailed none failure) left ∧
      codemod.watched.prepare name manifest (start.watched []) =
        .error (.codemodFailed none failure) (left.watched [.setup])) ∨
    ∃ plan left calls outcomes last,
      let prepared : Prepared σ := { name, manifest, codemod, plan }
      let live : Live σ := { own := left.own, journal := left.journal }
      codemod.prepare name manifest start = .ok prepared left ∧
      codemod.watched.prepare name manifest (start.watched []) =
        .ok prepared.watched (left.watched [.setup]) ∧
      Lifetime grammar prepared texts live calls outcomes last ∧
      Transformer.onTexts ⟨grammar, some prepared, ownExtensions⟩ texts live = (outcomes, last) ∧
      Transformer.onTexts ⟨grammar, some prepared.watched, ownExtensions⟩ texts
        (live.watched [.setup]) = (outcomes, last.watched (.setup :: calls)) ∧
      List.Forall₂ NamesInput texts outcomes ∧
      last.context = .empty := by
  have hplain := codemod.prepare_apply name manifest start
  have hwatched := codemod.watched.prepare_apply name manifest (start.watched [])
  rw [codemod.setup_watched] at hwatched
  cases hsetup : codemod.setup start with
  | error failure left =>
    rw [hsetup] at hwatched hplain
    exact .inl ⟨failure, left, hplain, hwatched⟩
  | ok plan left =>
    rw [hsetup] at hwatched hplain
    obtain ⟨calls, outcomes, last, hlife, hrun, hnoted⟩ := lifetime_onTexts grammar ownExtensions
      ⟨name, manifest, codemod, plan⟩ texts ⟨left.own, .empty, left.journal⟩ [.setup]
    exact .inr ⟨plan, left, calls, outcomes, last, hplain, hwatched, hlife, hrun, hnoted,
      hlife.forall₂_namesInput, hlife.context_eq rfl⟩

end Retouch
