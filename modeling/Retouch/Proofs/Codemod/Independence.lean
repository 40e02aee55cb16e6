import Retouch.Proofs.Codemod.Determined
import Retouch.Proofs.Codemod.Embedding
import Retouch.Proofs.Codemod.Renaming
import Retouch.Proofs.Codemod.Replacing
import Retouch.Proofs.Run.FileRun

/-!
# Texts do not influence each other

A transformer keeps its codemod from one text to the next, with the state that the texts before have
left. For the codemods of the library this makes no difference: what comes of a text, and what is
reported about it, is the same after any texts as it is with a transformer that was just built.

* **What a codemod does can be said without its state** (`Prepared.Gives`): there is a response,
  which gives the new tree and the reports for every context and tree. The state may change, but it
  is never looked at. Each of the three codemods has such a response, and it depends on the options
  alone (`exists_response`).
* **One text** (`Loaded.Gives.onText`). A text that does not fit the grammar changes nothing, any
  other text gets the response, and in both cases the codemod is afterwards one with the same
  response. So it still is after any number of texts (`Loaded.Gives.afterTexts`).
-/

namespace Retouch

open Traversal

variable {σ : Type}

/-! ### Responses -/

/-- What becomes of a tree in a context, and what is reported about it. -/
abbrev Response := Context → Tree → Tree × List Event

/-- The codemod gives the response in every state, and never fails. -/
def Prepared.Gives (prepared : Prepared σ) (response : Response) : Prop :=
  ∀ context tree state, ∃ own, prepared.transform context tree state =
    .ok (response context tree).1 ⟨own, state.journal.append (response context tree).2⟩

/-- What a text comes to by a response: the outcome and the reports. -/
def Response.onText (response : Response) (grammar : Grammar) (text : String)
    (context : Option Context) : Except RunError String × List Event :=
  match grammar.parse text with
  | .error fault => (.error (.syntaxFault (context.bind Context.inputFile?) fault), [])
  | .ok parsed =>
    let (tree, events) := response (context.getD .empty) parsed.tree
    (.ok (parsed.print tree), events)

/-- The transformer reads texts by the grammar, and its codemod gives the response. -/
structure Loaded.Gives (loaded : Loaded) (grammar : Grammar) (response : Response) : Prop where
  grammar_eq : loaded.transformer.grammar = grammar
  codemod_gives : ∃ prepared, loaded.transformer.codemod = some prepared ∧ prepared.Gives response

/-- To add no event changes nothing. -/
theorem Journal.append_nil (journal : Journal) : journal.append [] = journal := by
  rw [append, List.append_nil]

/-- A text that fits the grammar gets the response. -/
theorem Transformer.onText_of_gives {transformer : Transformer σ} {prepared : Prepared σ}
    {response : Response} (hprepared : transformer.codemod = some prepared)
    (hgives : prepared.Gives response) {text : String} {parsed : Parsed}
    (hparse : transformer.grammar.parse text = .ok parsed) (context : Option Context)
    (live : Live σ) :
    ∃ own, transformer.onText text context live =
      .ok (parsed.print (response (context.getD .empty) parsed.tree).1)
        ⟨own, .empty, live.journal.append (response (context.getD .empty) parsed.tree).2⟩ := by
  obtain ⟨own, hown⟩ := hgives (context.getD .empty) parsed.tree ⟨live.own, live.journal⟩
  refine ⟨own, ?_⟩
  simp only [onText, hparse, hprepared, bind_apply, transformTree]
  rw [hown]
  rfl

/-! ### Sequences of texts -/

namespace Loaded

/-- The transformer and the world after some texts, whatever comes of each of them. -/
def afterTexts (loaded : Loaded) : List (String × Option Context) → World → Loaded × World
  | [], world => (loaded, world)
  | (text, context) :: rest, world =>
    let (_, left, after) := loaded.onText text context world
    left.afterTexts rest after

variable {loaded : Loaded} {grammar : Grammar} {response : Response}

/-- A text comes to what the response says, and leaves a transformer with the same response. -/
theorem Gives.onText (h : loaded.Gives grammar response) (text : String)
    (context : Option Context) (world : World) :
    ∃ left, left.Gives grammar response ∧ loaded.onText text context world =
      ((response.onText grammar text context).1, left,
        { world with
          journal := world.journal.append (response.onText grammar text context).2 }) := by
  obtain ⟨prepared, hprepared, hgives⟩ := h.codemod_gives
  rw [Loaded.onText, runWith, RunM.onText_apply]
  cases hparse : grammar.parse text with
  | error fault =>
    refine ⟨loaded, h, ?_⟩
    simp only [Transformer.onText, h.grammar_eq, hparse, Response.onText, Journal.append_nil]
    rfl
  | ok parsed =>
    obtain ⟨own, hown⟩ := Transformer.onText_of_gives hprepared hgives
      (by rw [h.grammar_eq, hparse]) context
      (Site.live ⟨loaded.own, loaded.context, world.journal, world.store⟩)
    refine ⟨{ loaded with own, context := .empty }, ⟨h.grammar_eq, prepared, hprepared, hgives⟩, ?_⟩
    rw [hown]
    simp only [Response.onText, hparse]
    rfl

/-- The response is the same after any number of texts. -/
theorem Gives.afterTexts (h : loaded.Gives grammar response)
    (texts : List (String × Option Context)) (world : World) :
    (loaded.afterTexts texts world).1.Gives grammar response := by
  induction texts generalizing loaded world with
  | nil => exact h
  | cons item rest ih =>
    obtain ⟨text, context⟩ := item
    obtain ⟨left, hleft, hrun⟩ := h.onText text context world
    rw [Loaded.afterTexts, hrun]
    exact ih hleft _

end Loaded

/-! ### The codemods of the library -/

/-- A factory makes codemods whose response depends on the options alone. -/
def Factory.Responds (factory : Factory) : Prop :=
  ∀ options, ∃ response, ∀ journal made journal', factory options journal = (.ok made, journal') →
    ∀ name manifest state prepared after,
      made.codemod.prepare name manifest state = .ok prepared after → prepared.Gives response

/-- A factory responds if each codemod that it makes from options does. -/
theorem Factory.responds_ofOptions {make : Options → Except Failure (Codemod σ)} {initial : σ}
    (h : ∀ options codemod, make options = .ok codemod → ∃ response,
      ∀ name manifest state prepared after,
        codemod.prepare name manifest state = .ok prepared after → prepared.Gives response) :
    (Factory.ofOptions make initial).Responds := by
  intro options
  cases hmake : make options with
  | error failure =>
    refine ⟨fun _ tree => (tree, []), fun journal made journal' hmade => ?_⟩
    simp only [ofOptions, hmake] at hmade
    cases hmade
  | ok codemod =>
    obtain ⟨response, hresponse⟩ := h options codemod hmake
    refine ⟨response, fun journal made journal' hmade => ?_⟩
    simp only [ofOptions, hmake] at hmade
    cases hmade
    exact hresponse

/-- The codemod that changes nothing gives every tree back, without a report. -/
theorem responds_identity : (Factory.ofOptions (fun _ => .ok {}) ()).Responds := by
  refine Factory.responds_ofOptions fun options codemod hcodemod => ?_
  cases hcodemod
  refine ⟨fun _ tree => (tree, []), fun name manifest state prepared after hprepared => ?_⟩
  cases hprepared
  intro context tree state
  refine ⟨state.own, ?_⟩
  rw [Prepared.transform_of_idle rfl rfl, Journal.append_nil]

/-- The state of a codemod is a part of what its hooks see. -/
theorem HookState.isPart_own :
    IsPart (own : HookState σ → σ) fun own state => { state with own } :=
  ⟨fun _ _ => rfl, fun _ => rfl, fun _ _ _ => rfl⟩

namespace StringLiterals

/-- The walk of the codemod leaves the journal alone. -/
theorem traverse_ofCodemod (value : String) (tree : Tree) (state : HookState Nat) :
    Traversal.traverse [(replacer value).ofCodemod] tree state =
      .ok ⟨tree.statements.flatMap (Policy.rewrite [policy value])⟩
        ⟨state.own + (outermostAll tree.statements).length, state.journal⟩ := by
  have hfocus := traverse_focus HookState.isPart_own [replacer value] tree
  rw [List.map_singleton] at hfocus
  rw [Visitor.ofCodemod, hfocus, focus, traverse_eq]

/-- The tree with its literals replaced, and no report. -/
def response (value : String) : Response := fun _ tree =>
  (⟨tree.statements.flatMap (Policy.rewrite [policy value])⟩, [])

/-- The codemod replaces the literals of every tree, whatever it has counted before. -/
theorem gives_response (value name : String) (path : Path) :
    (prepared value name path).Gives (response value) := by
  intro context tree state
  refine ⟨state.own + (outermostAll tree.statements).length, ?_⟩
  simp only [response, Journal.append_nil, Prepared.transform, prepared, codemod,
    Prepared.runSteps, bind_apply, focus, traverse_ofCodemod, id]
  rfl

/-- Which text it puts in their place depends on the options alone. -/
theorem responds_ofOptions : (Factory.ofOptions ofOptions 0).Responds := by
  refine Factory.responds_ofOptions fun options codemod hcodemod => ?_
  obtain ⟨value, rfl⟩ := exists_value_of_ofOptions hcodemod
  refine ⟨response value, fun name manifest state prepared after hprepared => ?_⟩
  cases hprepared
  exact gives_response value name manifest

end StringLiterals

namespace RenameFunction

/-- The new tree and the report, by what the search for the name gives. -/
def response (name : Option String) (newName : String) : Response := fun context tree =>
  match (tree.findWhere? (isTarget name)).bind fun node => node.childByField? nameField with
  | some target =>
    ((tree.modifyWhere? (isTarget name) (renamed newName)).getD tree,
      [.diagnostic (renameRecord target newName)])
  | none => (tree, [.warning (notFoundMessage name context)])

/-- Renaming never fails, and it reports what the response says. -/
theorem rename_eq_response (name : Option String) (newName : String) (context : Context)
    (tree : Tree) (state : HookState σ) :
    rename name newName context tree state =
      .ok (response name newName context tree).1
        (state.append (response name newName context tree).2) := by
  rw [response]
  cases hfound : (tree.findWhere? (isTarget name)).bind fun node =>
      node.childByField? nameField with
  | some target => exact rename_of_found hfound newName context state
  | none => exact rename_of_not_found hfound newName context state

/-- The codemod has no steps, so its response is that of the renaming. -/
theorem gives_response (old : Option String) (new name : String) (manifest : Path) :
    Prepared.Gives ⟨name, manifest, codemod old new, []⟩ (response old new) := by
  intro context tree state
  refine ⟨state.own, ?_⟩
  simp only [Prepared.transform, codemod, bind_apply, rename_eq_response]
  rfl

/-- Which function it renames, and to what, depends on the options alone. -/
theorem responds_ofOptions : (Factory.ofOptions ofOptions ()).Responds := by
  refine Factory.responds_ofOptions fun options codemod hcodemod => ?_
  obtain ⟨old, new, rfl⟩ := exists_names_of_ofOptions hcodemod
  refine ⟨response old new, fun name manifest state prepared after hprepared => ?_⟩
  cases hprepared
  exact gives_response old new name manifest

end RenameFunction

/-! ### Transformers that are built from manifests -/

/-- The transformer is one that was just built, with the codemod that the manifest names in the
library and with its options. -/
def Loaded.BuiltFrom (loaded : Loaded) (manifest : Manifest) (grammar : Grammar) : Prop :=
  ∃ ownExtensions name path made journal built after,
    Registry.builtin.build manifest journal = (.ok made, built) ∧
      Loaded.ofInstance grammar ownExtensions name path made built = (.ok loaded, after)

/-- All transformers that are built from a manifest give the same response. -/
theorem exists_response (manifest : Manifest) (grammar : Grammar) :
    ∃ response, ∀ loaded : Loaded, loaded.BuiltFrom manifest grammar →
      loaded.Gives grammar response := by
  cases hfactory : Registry.builtin.get? manifest.codemod with
  | none =>
    refine ⟨fun _ tree => (tree, []), ?_⟩
    rintro loaded ⟨_, _, _, _, _, _, _, hbuild, -⟩
    obtain ⟨factory, hfound, -⟩ := Registry.exists_factory_of_build hbuild
    rw [hfactory] at hfound
    cases hfound
  | some factory =>
    have hresponds : factory.Responds := by
      rcases Registry.builtin_cases hfactory with rfl | rfl | rfl
      · exact responds_identity
      · exact StringLiterals.responds_ofOptions
      · exact RenameFunction.responds_ofOptions
    obtain ⟨response, hresponse⟩ := hresponds manifest.options
    refine ⟨response, ?_⟩
    rintro loaded ⟨ownExtensions, name, path, made, journal, built, after, hbuild, hloaded⟩
    obtain ⟨other, hother, hmade⟩ := Registry.exists_factory_of_build hbuild
    obtain rfl : factory = other := Option.some.inj (hfactory.symm.trans hother)
    rw [Loaded.ofInstance] at hloaded
    split at hloaded
    · rename_i prepared state hprepared
      cases hloaded
      exact ⟨rfl, prepared, rfl, hresponse _ _ _ hmade _ _ _ _ _ hprepared⟩
    · cases hloaded

/-- A text that goes through a codemod of the library after any texts, fit for the grammar or not
and with any contexts, has the outcome that it has with a transformer that was just built from a
manifest with the same codemod and options, in any world. What is reported about it is the same,
too. -/
theorem onText_afterTexts {manifest : Manifest} {grammar : Grammar} {used fresh : Loaded}
    (hused : used.BuiltFrom manifest grammar) (hfresh : fresh.BuiltFrom manifest grammar)
    (earlier : List (String × Option Context)) (text : String) (context : Option Context)
    (world other : World) :
    let now := used.afterTexts earlier world
    let run := now.1.onText text context now.2
    let alone := fresh.onText text context other
    run.1 = alone.1 ∧
      run.2.2.journal.since now.2.journal = alone.2.2.journal.since other.journal := by
  obtain ⟨response, hresponse⟩ := exists_response manifest grammar
  have hnow := (hresponse used hused).afterTexts earlier world
  obtain ⟨_, -, hrun⟩ := hnow.onText text context (used.afterTexts earlier world).2
  obtain ⟨_, -, hrunAlone⟩ := (hresponse fresh hfresh).onText text context other
  simp only [hrun, hrunAlone, Journal.since_append, and_self]

/-- A grammar that one text fits. -/
def oneText : Grammar :=
  .php fun text =>
    if text = StringLiterals.interpolatedSource then StringLiterals.interpolated
    else { kind := "ERROR", span := ⟨0, 0⟩, isError := true, hasError := true }

/-- A transformer that replaces literals, just built. -/
def dollarsLoaded (name : String) : Loaded where
  transformer := ⟨oneText, some (StringLiterals.prepared "$x" name ⟨name⟩), none⟩
  own := (0 : Nat)

/-- A text after one that does not fit the grammar and one that holds the same literals. -/
theorem onText_afterTexts_dollars :
    let used := dollarsLoaded "used"
    let fresh := dollarsLoaded "fresh"
    let source := StringLiterals.interpolatedSource
    let earlier := [("echo", none), (source, some (.forFile ⟨"/a.php"⟩ ⟨"/b.php"⟩))]
    let now := used.afterTexts earlier {}
    used.BuiltFrom StringLiterals.dollars oneText ∧
      fresh.BuiltFrom StringLiterals.dollars oneText ∧
      (used.onText "echo" none {}).1.toOption = none ∧
      (now.1.onText source none now.2).1.toOption = some "echo \"\\$x\" . \"\\$x\";" := by
  have hbuilt : ∀ name, (dollarsLoaded name).BuiltFrom StringLiterals.dollars oneText := by
    intro name
    obtain ⟨made, hmade, hloaded⟩ := StringLiterals.build_eq oneText none name ⟨name⟩
      (rfl : StringLiterals.dollars.codemod = StringLiterals.codemodName) rfl {}
    exact ⟨none, name, ⟨name⟩, made, {}, {}, {}, hmade, hloaded⟩
  obtain ⟨hsame, -⟩ := onText_afterTexts (hbuilt "used") (hbuilt "fresh")
    [("echo", none), (StringLiterals.interpolatedSource, some (.forFile ⟨"/a.php"⟩ ⟨"/b.php"⟩))]
    StringLiterals.interpolatedSource none {} {}
  have halone :
      ((dollarsLoaded "fresh").onText StringLiterals.interpolatedSource none {}).1.toOption =
        some "echo \"\\$x\" . \"\\$x\";" := by decide +kernel
  refine ⟨hbuilt "used", hbuilt "fresh", by decide +kernel, ?_⟩
  exact (congrArg Except.toOption hsame).trans halone

end Retouch
