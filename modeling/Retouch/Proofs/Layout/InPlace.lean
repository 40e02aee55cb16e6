import Retouch.Proofs.Layout.Splicing

/-!
# Trees that are edited in place

Two kinds of working trees hold the nodes of the original where the source has them.

* **New texts.** Some nodes of a copy were given a new text, each by turning it into a leaf or by
  putting a fresh leaf in its place. As long as none of them is below another one, the tree prints
  as the source with exactly the ranges of these nodes replaced (`print_reword`). New texts may be
  empty or equal to the old ones, and the nodes may be leaves, branches or statements.
* **Lost identities.** Some nodes of a copy lost the mark by which they are recognised, and with it
  possibly their kind and role. Nothing of that shows: the tree prints as the source
  (`print_unmarked`). Which of the two ways of printing a node takes can thus not be told from the
  result.
-/

namespace Retouch

open Text

/-! ### New texts -/

/-- A way to give a node a new text. -/
inductive Rewording where
  /-- Makes the node a leaf with the text. -/
  | setText (text : String)
  /-- Puts a fresh leaf in the place of the node. -/
  | replaceWith (kind text : String)
deriving DecidableEq

namespace Rewording

/-- The new text. -/
def text : Rewording → String
  | setText text => text
  | replaceWith _ text => text

/-- The node with the new text. -/
def apply : Rewording → Node → Node
  | setText text, node => node.setText text
  | replaceWith kind text, node => node.replaceWith (.leaf kind text)

end Rewording

namespace Node

/-- The new text that is chosen for a node, by its identity. -/
def chosen? (choice : NodeId → Option Rewording) (node : Node) : Option Rewording :=
  node.origin.bind choice

/-- The range of a chosen node with its new text. -/
def edit? (choice : NodeId → Option Rewording) (node : Node) : Option (Span × String) := do
  let rewording ← node.chosen? choice
  let span ← node.span
  some (span, rewording.text)

mutual

/-- A copy of the node in which the chosen nodes at or below it have their new texts. -/
def reword (choice : NodeId → Option Rewording) : Node → Node
  | node@{ children, .. } =>
    match node.chosen? choice with
    | some rewording => rewording.apply node
    | none => { node with children := rewordAll choice children }

/-- The same for a list of subtrees. -/
def rewordAll (choice : NodeId → Option Rewording) : List Node → List Node
  | [] => []
  | node :: rest => reword choice node :: rewordAll choice rest

end

/-- Subtrees are reworded one by one. -/
theorem rewordAll_eq_map (choice : NodeId → Option Rewording) (nodes : List Node) :
    rewordAll choice nodes = nodes.map (reword choice) := by
  induction nodes with
  | nil => rfl
  | cons node rest ih => rw [rewordAll, ih, List.map_cons]

/-- A chosen node gets its new text, and in any other node the children are reworded. -/
theorem reword_eq (choice : NodeId → Option Rewording) (node : Node) :
    node.reword choice =
      match node.chosen? choice with
      | some rewording => rewording.apply node
      | none => { node with children := node.children.map (reword choice) } := by
  obtain ⟨_, _, _, _, _, _⟩ := node
  rw [reword, rewordAll_eq_map]

end Node

namespace Tree

/-- A copy of the tree in which the chosen nodes have their new texts. -/
def reword (choice : NodeId → Option Rewording) (tree : Tree) : Tree :=
  ⟨Node.rewordAll choice tree.statements⟩

/-- No chosen node is below another one. -/
def Independent (choice : NodeId → Option Rewording) (tree : Tree) : Prop :=
  ∀ node ∈ tree.nodes, (node.chosen? choice).isSome →
    ∀ below ∈ Node.preorderList node.children, below.chosen? choice = none

instance (choice : NodeId → Option Rewording) (tree : Tree) :
    Decidable (tree.Independent choice) :=
  inferInstanceAs (Decidable (∀ node ∈ tree.nodes, (node.chosen? choice).isSome →
    ∀ below ∈ Node.preorderList node.children, below.chosen? choice = none))

/-- The ranges of the chosen nodes with their new texts, in document order. -/
def rewordings (choice : NodeId → Option Rewording) (tree : Tree) : List (Span × String) :=
  tree.nodes.filterMap (Node.edit? choice)

end Tree

namespace Layout

variable {source : String} {root : Concrete} {parsed : Parsed} {tree : Tree}

/-- The new texts of a choice, node by node. -/
def newText (choice : NodeId → Option Rewording) (node : Node) : Option String :=
  (node.chosen? choice).map Rewording.text

/-- A reworded node stands for the node that it was made from. -/
theorem stands_reword (choice : NodeId → Option Rewording) (node : Node) :
    Stands (newText choice) node (node.reword choice) := by
  induction node using Node.childInduction with
  | step node ih =>
    rw [Node.reword_eq]
    cases hchosen : node.chosen? choice with
    | none =>
      have hnew : newText choice node = none := by rw [newText, hchosen, Option.map_none]
      refine .same rfl (Or.inr rfl) hnew rfl ?_
      rw [List.forall₂_map_right_iff, List.forall₂_same]
      exact ih
    | some rewording =>
      have hnew : newText choice node = some rewording.text := by
        rw [newText, hchosen, Option.map_some]
      cases rewording with
      | setText text => exact .reworded rfl (Or.inr rfl) hnew rfl
      | replaceWith kind text => exact .reworded rfl (Or.inl rfl) hnew rfl

/-- When no chosen node is below another one, the outermost chosen nodes are all chosen nodes. -/
theorem splices_newText (h : Original source tree) {choice : NodeId → Option Rewording}
    (hindependent : tree.Independent choice) {node : Node} (hnode : node ∈ tree.nodes) :
    node.splices (newText choice) = node.preorder.filterMap (Node.edit? choice) := by
  induction node using Node.childInduction with
  | step node ih =>
    rw [Node.preorder_eq, List.filterMap_cons]
    cases hchosen : node.chosen? choice with
    | some rewording =>
      have hnew : newText choice node = some rewording.text := by
        rw [newText, hchosen, Option.map_some]
      have hedit : node.edit? choice = some (node.place, rewording.text) := by
        rw [Node.edit?, hchosen, (h.settled node hnode).span_eq]
        rfl
      have hbelow : (Node.preorderList node.children).filterMap (Node.edit? choice) = [] := by
        rw [List.filterMap_eq_nil_iff]
        intro below hmem
        rw [Node.edit?, hindependent node hnode (by rw [hchosen, Option.isSome_some]) below hmem]
        rfl
      rw [Node.splices_of_some hnew, hedit, hbelow]
    | none =>
      have hnew : newText choice node = none := by rw [newText, hchosen, Option.map_none]
      have hedit : node.edit? choice = none := by
        rw [Node.edit?, hchosen]
        rfl
      rw [Node.splices_of_none hnew, hedit, Node.preorderList_eq_flatMap, List.filterMap_flatMap]
      exact List.flatMap_congr fun child hchild =>
        ih child hchild (tree.mem_nodes_of_child hnode hchild)

/-- If no chosen node is below another one, all of them are spliced. -/
theorem splicesList_newText (h : Original source tree) {choice : NodeId → Option Rewording}
    (hindependent : tree.Independent choice) :
    Node.splicesList (newText choice) tree.statements = tree.rewordings choice := by
  rw [Node.splicesList_eq_flatMap, Tree.rewordings, Tree.nodes, Node.preorderList_eq_flatMap,
    List.filterMap_flatMap]
  exact List.flatMap_congr fun statement hstatement =>
    splices_newText h hindependent (Tree.mem_nodes_of_statement hstatement)

/-- A copy of the original in which some nodes, none of them below another one, were given new
texts prints as the source with exactly the ranges of these nodes replaced by their new texts. These
ranges are in order and do not overlap. -/
theorem print_reword (hread : root.read source = .ok parsed) (hfits : root.WellFormed source)
    (choice : NodeId → Option Rewording) (hindependent : parsed.tree.Independent choice) :
    InOrder source source.utf8ByteSize 0 ((parsed.tree.rewordings choice).map Prod.fst) ∧
      parsed.print (parsed.tree.reword choice) = splice source (parsed.tree.rewordings choice) := by
  have horiginal := Concrete.original_of_read hread hfits
  have hstands : List.Forall₂ (Stands (newText choice)) parsed.tree.statements
      (parsed.tree.reword choice).statements := by
    rw [Tree.reword, Node.rewordAll_eq_map, List.forall₂_map_right_iff, List.forall₂_same]
    exact fun statement _ => stands_reword choice statement
  rw [Parsed.print_eq hread, ← splicesList_newText horiginal hindependent]
  exact ⟨inOrder_splicesList horiginal, print_eq_splice_of_stands horiginal hstands⟩

/-- A new opening tag for the small source, and an empty text for the string in it. -/
def quietGreeting : NodeId → Option Rewording
  | ⟨0⟩ => some (.replaceWith "text" "<?php // ö")
  | ⟨5⟩ => some (.setText "")
  | _ => none

/-- The new tag and the empty string are in the places of the old ones, and all else stays. -/
theorem print_reword_quietGreeting :
    greeting.read greetingSource = .ok greetingParsed ∧ greeting.WellFormed greetingSource ∧
      greetingParsed.tree.Independent quietGreeting ∧
      greetingParsed.print (greetingParsed.tree.reword quietGreeting) =
        "<?php // ö\necho  '' ;\n" := by
  have hread : greeting.read greetingSource = .ok greetingParsed := rfl
  have hfits : greeting.WellFormed greetingSource := by decide
  have hindependent : greetingParsed.tree.Independent quietGreeting := by decide
  refine ⟨hread, hfits, hindependent, ?_⟩
  rw [(print_reword hread hfits quietGreeting hindependent).2]
  decide

end Layout

/-! ### Lost identities -/

/-- A node with the text, the range and the shape of `base` and of all below it, in which any node
may have lost its identity. A node without identity may be of any kind and in any role. -/
inductive Node.Unmarked : (base node : Node) → Prop
  | intro {base node : Node} (htext : node.text = base.text) (hspan : node.span = base.span)
      (hmark : node.origin = none ∨
        node.origin = base.origin ∧ node.kind = base.kind ∧ node.field = base.field)
      (hchildren : List.Forall₂ Node.Unmarked base.children node.children) : Unmarked base node

namespace Layout

variable {source : String} {root : Concrete} {parsed : Parsed}

/-- A node that lost identities stands for the node that it was. -/
theorem stands_of_unmarked {base node : Node} (h : base.Unmarked node) :
    Stands (fun _ => none) base node := by
  induction base using Node.childInduction generalizing node with
  | step base ih =>
    obtain ⟨htext, hspan, hmark, hchildren⟩ := h
    have horigin : node.origin = none ∨ node.origin = base.origin := hmark.imp_right And.left
    have hboth := (List.forall₂_and_left _ _).mpr
      ⟨fun child hchild other => @ih child hchild other, hchildren⟩
    refine .same hspan horigin rfl htext ?_
    exact hboth.imp fun child other hother => hother.1 other hother.2

/-- Without a new text nothing is spliced. -/
theorem splices_none (node : Node) : node.splices (fun _ => none) = [] := by
  induction node using Node.childInduction with
  | step node ih =>
    rw [Node.splices_of_none rfl, List.flatMap_eq_nil_iff]
    exact ih

/-- A copy of the original in which nodes lost their identities prints as the source. -/
theorem print_unmarked (hread : root.read source = .ok parsed) (hfits : root.WellFormed source)
    {edited : Tree}
    (hunmarked : List.Forall₂ Node.Unmarked parsed.tree.statements edited.statements) :
    parsed.print edited = source := by
  have horiginal := Concrete.original_of_read hread hfits
  have hstands := hunmarked.imp fun base node => stands_of_unmarked
  have hsplices : Node.splicesList (fun _ => none) parsed.tree.statements = [] := by
    rw [Node.splicesList_eq_flatMap, List.flatMap_eq_nil_iff]
    exact fun statement _ => splices_none statement
  rw [Parsed.print_eq hread, print_eq_splice_of_stands horiginal hstands, hsplices, splice_nil]

/-- The small source with a string that lost its identity and its kind, and a first quote in it that
lost its identity and got a role. -/
def anonymousGreeting : Tree :=
  ⟨[{ kind := "php_tag", text := some "<?php", origin := some ⟨0⟩, span := some ⟨0, 5⟩ },
    { kind := "echo_statement", origin := some ⟨1⟩, span := some ⟨6, 19⟩
      children :=
        [{ kind := "echo", text := some "echo", origin := some ⟨2⟩, span := some ⟨6, 10⟩ },
         { kind := "heredoc", span := some ⟨12, 17⟩
           children :=
             [{ kind := "'", field := some "open", text := some "'", span := some ⟨12, 13⟩ },
              { kind := "string_content", text := some "hé", origin := some ⟨5⟩
                span := some ⟨13, 16⟩ },
              { kind := "'", text := some "'", origin := some ⟨6⟩, span := some ⟨16, 17⟩ }] },
         { kind := ";", text := some ";", origin := some ⟨7⟩, span := some ⟨18, 19⟩ }] }]⟩

/-- The lost identities do not show in the text. -/
theorem print_unmarked_anonymousGreeting :
    greeting.read greetingSource = .ok greetingParsed ∧ greeting.WellFormed greetingSource ∧
      List.Forall₂ Node.Unmarked greetingParsed.tree.statements anonymousGreeting.statements ∧
      greetingParsed.print anonymousGreeting = greetingSource := by
  have hread : greeting.read greetingSource = .ok greetingParsed := rfl
  have hfits : greeting.WellFormed greetingSource := by decide
  have hunmarked :
      List.Forall₂ Node.Unmarked greetingParsed.tree.statements anonymousGreeting.statements :=
    .cons (.intro rfl rfl (.inr ⟨rfl, rfl, rfl⟩) .nil) <|
    .cons (.intro rfl rfl (.inr ⟨rfl, rfl, rfl⟩) <|
      .cons (.intro rfl rfl (.inr ⟨rfl, rfl, rfl⟩) .nil) <|
      .cons (.intro rfl rfl (.inl rfl) <|
        .cons (.intro rfl rfl (.inl rfl) .nil) <|
        .cons (.intro rfl rfl (.inr ⟨rfl, rfl, rfl⟩) .nil) <|
        .cons (.intro rfl rfl (.inr ⟨rfl, rfl, rfl⟩) .nil) .nil) <|
      .cons (.intro rfl rfl (.inr ⟨rfl, rfl, rfl⟩) .nil) .nil) .nil
  exact ⟨hread, hfits, hunmarked, print_unmarked hread hfits hunmarked⟩

end Layout

end Retouch
