import Retouch.Proofs.Layout.Splicing
import Retouch.Proofs.Run.RoundTrip
import Retouch.Proofs.Traversal.Rewriting

/-!
# Replacing string literals, from text to text

The codemod that replaces string literals puts its text, between double quotes, in the place of
every literal that is not inside of another one (`outermost`), and changes nothing else in a text.

* **The walk.** The visitor of the codemod follows a policy (`follows_replacer`), so the walk is a
  rewriting. What it makes of a node stands where the source has the node
  (`forall₂_stands_rewrite`): a literal gets the new text and keeps the range, and every other node
  keeps its text while the literals below it are replaced.
* **The text.** A tree whose nodes stand where the source has them prints as the source with the new
  texts in the places of the literals, and as the source itself if there are none
  (`onText_literals`). In the second case the ranges may be any, since the tree is not changed at
  all.
-/

namespace Retouch

open Text Layout Traversal

/-- The value of a run of a text is what the codemod makes of the tree, printed. -/
theorem Transformer.valueOf?_onText {σ : Type} {grammar : Grammar} {text : String} {parsed : Parsed}
    (hparse : grammar.parse text = .ok parsed) {prepared : Prepared σ} {tree : Tree}
    (htransform : ∀ context state,
      valueOf? (prepared.transform context parsed.tree state) = some tree)
    (own : Option (List String)) (context : Option Context) (live : Live σ) :
    valueOf? (Transformer.onText ⟨grammar, some prepared, own⟩ text context live) =
      some (parsed.print tree) := by
  have hvalue := htransform (context.getD .empty) ⟨live.own, live.journal⟩
  simp only [onText, hparse, bind_apply, transformTree]
  rw [eq_ok_of_valueOf? hvalue]
  rfl

/-- A codemod whose only work is one walk gives what the walk gives. -/
theorem Prepared.valueOf?_transform_of_walk {σ : Type} {prepared : Prepared σ}
    {visitors : List (Visitor (HookState σ))} {tree result : Tree}
    (hbefore : prepared.codemod.before = fun _ => pure)
    (hafter : prepared.codemod.after = fun _ => pure) (hplan : prepared.plan = [visitors])
    (hwalk : ∀ state, valueOf? (Traversal.traverse visitors tree state) = some result)
    (context : Context) (state : HookState σ) :
    valueOf? (prepared.transform context tree state) = some result := by
  have hstep : valueOf? (focus id (fun state _ => state) WalkError.toFailure
      (Traversal.traverse visitors tree) state) = some result := by
    rw [valueOf?_focus]
    exact hwalk state
  have hsteps : valueOf? (runSteps [visitors] tree state) = some result := by
    rw [runSteps, valueOf?_bind hstep]
    rfl
  have hstart : valueOf? ((pure tree : HookM (HookState σ) Tree) state) = some tree := rfl
  rw [transform, hbefore, hafter, hplan, valueOf?_bind hstart]
  exact (valueOf?_bind hsteps _).trans rfl

namespace StringLiterals

/-! ### Literals -/

mutual

/-- The literals at or below a node that are not inside of another one, in document order. -/
def outermost : Node → List Node
  | node@{ children, .. } => if isLiteral node then [node] else outermostAll children

/-- The same for a list of subtrees. -/
def outermostAll : List Node → List Node
  | [] => []
  | node :: rest => outermost node ++ outermostAll rest

end

/-- The ranges of these literals in a tree, each with the text that takes its place. -/
def edits (value : String) (tree : Tree) : List (Span × String) :=
  (outermostAll tree.statements).map fun literal => (literal.place, doubleQuoted value)

/-- The new text of a node, if it is a literal. -/
def newText (value : String) (node : Node) : Option String :=
  if isLiteral node then some (doubleQuoted value) else none

/-- The outermost literals of neighbours are those of each of them, in order. -/
theorem outermostAll_eq_flatMap (nodes : List Node) :
    outermostAll nodes = nodes.flatMap outermost := by
  induction nodes with
  | nil => rfl
  | cons node rest ih => rw [outermostAll, ih, List.flatMap_cons]

/-- A literal is the only outermost one at and below itself. -/
theorem outermost_eq (node : Node) :
    outermost node =
      if isLiteral node then [node] else node.children.flatMap outermost := by
  obtain ⟨_, _, _, _, _, _⟩ := node
  rw [outermost, outermostAll_eq_flatMap]

/-- The ranges that are replaced at and below a node are those of its outermost literals. -/
theorem splices_newText (value : String) (node : Node) :
    node.splices (newText value) =
      (outermost node).map fun literal => (literal.place, doubleQuoted value) := by
  induction node using Node.childInduction with
  | step node ih =>
    rw [outermost_eq]
    by_cases hliteral : isLiteral node = true
    · rw [Node.splices_of_some (if_pos hliteral), if_pos hliteral]
      rfl
    · rw [Node.splices_of_none (if_neg hliteral), if_neg hliteral, List.map_flatMap]
      exact List.flatMap_congr ih

/-- The ranges that are replaced in a tree are those of its outermost literals. -/
theorem splicesList_newText (value : String) (tree : Tree) :
    Node.splicesList (newText value) tree.statements = edits value tree := by
  rw [Node.splicesList_eq_flatMap, edits, outermostAll_eq_flatMap, List.map_flatMap]
  exact List.flatMap_congr fun node _ => splices_newText value node

/-! ### The walk -/

/-- What the visitor of the codemod answers. -/
def policy (value : String) : Policy where
  skips := isLiteral
  leave node := (if isLiteral node then node.replaceWith (literalNode value) else node, .keep)

/-- The visitor does what its policy says, and counts the literals. -/
theorem follows_replacer (value : String) : Follows (replacer value) (policy value) where
  before _ _ := rfl
  enter _ _ := rfl
  leave node own := by
    by_cases hliteral : isLiteral node = true
    · simp only [replacer, policy, hliteral, if_true]
      rfl
    · simp only [replacer, policy, hliteral, if_false, Bool.false_eq_true]
      rfl
  after _ _ := rfl

/-- A literal is replaced as a whole. -/
theorem rewrite_of_literal (value : String) {node : Node} (h : isLiteral node = true) :
    Policy.rewrite [policy value] node = [node.replaceWith (literalNode value)] := by
  have hskipped : Policy.skipped [policy value] node = true := by
    simp [Policy.skipped, policy, h]
  rw [Policy.rewrite_of_skipped hskipped]
  simp [Policy.settle, policy, h]

/-- A node that is no literal is kept when it is left. -/
theorem settle_of_not_literal (value : String) {node : Node} (h : isLiteral node = false) :
    Policy.settle [policy value] node = [node] := by
  simp [Policy.settle, policy, h]

/-- A node that is no literal stays, with what comes of its children. -/
theorem rewrite_of_not_literal (value : String) {node : Node} (h : isLiteral node = false) :
    Policy.rewrite [policy value] node =
      [{ node with children := node.children.flatMap (Policy.rewrite [policy value]) }] := by
  have hskipped : Policy.skipped [policy value] node = false := by
    simp [Policy.skipped, policy, h]
  rw [Policy.rewrite_of_not_skipped hskipped]
  exact settle_of_not_literal value h

/-- Whatever becomes of each node stands for the node, so it does for neighbours. -/
theorem forall₂_flatMap_of_single {related : Node → Node → Prop} {rewrite : Node → List Node}
    {nodes : List Node}
    (h : ∀ node ∈ nodes, ∃ left, rewrite node = [left] ∧ related node left) :
    List.Forall₂ related nodes (nodes.flatMap rewrite) := by
  induction nodes with
  | nil => exact .nil
  | cons node rest ih =>
    obtain ⟨left, hrewrite, hrelated⟩ := h node List.mem_cons_self
    rw [List.flatMap_cons, hrewrite]
    exact .cons hrelated (ih fun other hother => h other (List.mem_cons_of_mem _ hother))

/-- What becomes of a node stands where the source has the node. -/
theorem stands_rewrite (value : String) (node : Node) :
    ∃ left, Policy.rewrite [policy value] node = [left] ∧ Stands (newText value) node left := by
  induction node using Node.childInduction with
  | step node ih =>
    cases hliteral : isLiteral node with
    | true =>
      refine ⟨_, rewrite_of_literal value hliteral, ?_⟩
      exact .reworded rfl (Or.inl rfl) (if_pos hliteral) rfl
    | false =>
      refine ⟨_, rewrite_of_not_literal value hliteral, ?_⟩
      have hnew : newText value node = none := by
        rw [newText, hliteral]
        rfl
      exact .same rfl (Or.inr rfl) hnew rfl (forall₂_flatMap_of_single ih)

/-- What comes of neighbours stands for them one for one. -/
theorem forall₂_stands_rewrite (value : String) (nodes : List Node) :
    List.Forall₂ (Stands (newText value)) nodes
      (nodes.flatMap (Policy.rewrite [policy value])) :=
  forall₂_flatMap_of_single fun node _ => stands_rewrite value node

/-- The codemod as it is once it is set up. -/
def prepared (value name : String) (path : Path) : Prepared Nat :=
  ⟨name, path, codemod value, [[(replacer value).ofCodemod]]⟩

/-- The codemod never fails, and makes of a tree what its policy says. -/
theorem valueOf?_transform (value name : String) (path : Path) (context : Context) (tree : Tree)
    (state : HookState Nat) :
    valueOf? ((prepared value name path).transform context tree state) =
      some ⟨tree.statements.flatMap (Policy.rewrite [policy value])⟩ := by
  have hfollows : List.Forall₂ Follows [(replacer value).ofCodemod] [policy value] :=
    .cons (follows_replacer value).focus .nil
  apply Prepared.valueOf?_transform_of_walk rfl rfl rfl
  intro state
  obtain ⟨left, hwalk, -⟩ :=
    (shows_traverseWithin_of_follows hfollows growth tree).run_exactly state
  rw [Traversal.traverse, hwalk]
  rfl

/-- A tree without literals comes back as it was. -/
theorem flatMap_rewrite_of_no_literals (value : String) {tree : Tree}
    (h : ∀ node ∈ tree.nodes, isLiteral node = false) :
    tree.statements.flatMap (Policy.rewrite [policy value]) = tree.statements := by
  refine Policy.flatMap_of_kept fun statement hstatement => ?_
  refine Policy.rewrite_of_settled fun below hbelow => settle_of_not_literal value (h below ?_)
  rw [Tree.nodes, Node.preorderList_eq_flatMap]
  exact List.mem_flatMap.mpr ⟨statement, hstatement, hbelow⟩

/-! ### Texts -/

/-- What the factory of the codemod makes, once it is set up. -/
theorem build_eq (grammar : Grammar) (own : Option (List String)) (name : String) (path : Path)
    {manifest : Manifest} {replacement : Option String} (hname : manifest.codemod = codemodName)
    (hreplacement : manifest.options.string? "replacement" = .ok replacement) (journal : Journal) :
    ∃ made, Registry.builtin.build manifest journal = (.ok made, journal) ∧
      Loaded.ofInstance grammar own name path made journal =
        (.ok { transformer := ⟨grammar,
                 some (prepared (replacement.getD defaultReplacement) name path), own⟩
               own := (0 : Nat) }, journal) := by
  have hfactory : Registry.builtin.get? codemodName = some (.ofOptions ofOptions 0) := by
    rfl
  refine ⟨{ codemod := codemod (replacement.getD defaultReplacement), initial := 0 }, ?_, rfl⟩
  rw [Registry.build, hname, hfactory]
  simp only [Factory.ofOptions, ofOptions, hreplacement]
  rfl

/-- A text whose concrete tree has no fault goes through the codemod, wherever that is loaded from
and in every state of it. If the tree is well-formed, what comes out is the text in which exactly
the ranges of the outermost literals, which are in order and do not overlap, are replaced by the
quoted value. If there are no literals, it is the text itself, whatever the ranges are. -/
theorem onText_literals (grammar : Grammar) (text : String)
    (hfaultless : (grammar.tree text).hasError = false) (own : Option (List String)) :
    ∃ parsed, grammar.parse text = .ok parsed ∧
      ∀ (manifest : Manifest) (replacement : Option String) (name : String) (path : Path)
        (journal : Journal), manifest.codemod = codemodName →
        manifest.options.string? "replacement" = .ok replacement →
        ∃ made loaded, Registry.builtin.build manifest journal = (.ok made, journal) ∧
          Loaded.ofInstance grammar own name path made journal = (.ok loaded, journal) ∧
          ((grammar.tree text).WellFormed text →
            let edits := edits (replacement.getD defaultReplacement) parsed.tree
            InOrder text text.utf8ByteSize 0 (edits.map Prod.fst) ∧
              ∀ context live, valueOf? (loaded.transformer.onText text context live) =
                some (splice text edits)) ∧
          ((∀ node ∈ parsed.tree.nodes, isLiteral node = false) →
            ∀ context live, valueOf? (loaded.transformer.onText text context live) =
              some text) := by
  obtain ⟨parsed, hparse, -⟩ := Concrete.exists_read_of_not_hasError text hfaultless
  refine ⟨parsed, hparse, ?_⟩
  intro manifest replacement name path journal hname hreplacement
  obtain ⟨made, hbuild, hloaded⟩ := build_eq grammar own name path hname hreplacement journal
  have honText := Transformer.valueOf?_onText hparse
    (fun context state => valueOf?_transform (replacement.getD defaultReplacement) name path context
      parsed.tree state) own
  refine ⟨made, _, hbuild, hloaded, ?_, ?_⟩
  · intro hfits
    have horiginal := Concrete.original_of_read hparse hfits
    rw [← splicesList_newText]
    refine ⟨inOrder_splicesList horiginal, fun context live => ?_⟩
    rw [honText, Parsed.print_eq hparse]
    exact congrArg some (print_eq_splice_of_stands horiginal (forall₂_stands_rewrite _ _))
  · intro hnone context live
    rw [honText, flatMap_rewrite_of_no_literals _ hnone]
    exact congrArg some (Parsed.print_tree hparse)

/-- The source of `interpolated`. -/
def interpolatedSource : String :=
  "echo \"$a['k']\" . 'b';"

/-- The concrete tree of a small source with a literal inside of another one. -/
def interpolated : Concrete :=
  { kind := "program", span := ⟨0, 21⟩
    children :=
      [{ kind := "echo_statement", span := ⟨0, 21⟩
         children :=
           [{ kind := "echo", span := ⟨0, 4⟩ },
            { kind := "encapsed_string", span := ⟨5, 14⟩
              children :=
                [{ kind := "quote", span := ⟨5, 6⟩ },
                 { kind := "subscript_expression", span := ⟨6, 13⟩
                   children :=
                     [{ kind := "variable_name", span := ⟨6, 8⟩ },
                      { kind := "[", span := ⟨8, 9⟩ },
                      { kind := "string", span := ⟨9, 12⟩ },
                      { kind := "]", span := ⟨12, 13⟩ }] },
                 { kind := "quote", span := ⟨13, 14⟩ }] },
            { kind := ".", span := ⟨15, 16⟩ },
            { kind := "string", span := ⟨17, 20⟩ },
            { kind := ";", span := ⟨20, 21⟩ }] }] }

/-- A manifest that asks for a text which has to be escaped. -/
def dollars : Manifest :=
  { codemod := "replace-string-literals", options := [("replacement", .string "$x")] }

/-- A literal inside of an interpolated one goes with it, and a dollar sign is written as it is. -/
theorem onText_literals_interpolated :
    interpolated.hasError = false ∧ interpolated.WellFormed interpolatedSource ∧
      ∃ made loaded,
        Registry.builtin.build dollars {} = (.ok made, {}) ∧
        Loaded.ofInstance (.php fun _ => interpolated) none "dollars" ⟨"dollars.toml"⟩ made {} =
          (.ok loaded, {}) ∧
        ∀ context live, valueOf? (loaded.transformer.onText interpolatedSource context live) =
          some "echo \"\\$x\" . \"\\$x\";" := by
  have hfits : interpolated.WellFormed interpolatedSource := by decide
  obtain ⟨parsed, hparse, hliterals⟩ :=
    onText_literals (.php fun _ => interpolated) interpolatedSource rfl none
  obtain ⟨made, loaded, hbuild, hloaded, hreplaced, -⟩ :=
    hliterals dollars (some "$x") "dollars" ⟨"dollars.toml"⟩ {} rfl rfl
  refine ⟨rfl, hfits, made, loaded, hbuild, hloaded, fun context live => ?_⟩
  rw [(hreplaced hfits).2 context live]
  cases hparse
  decide

end StringLiterals

end Retouch
