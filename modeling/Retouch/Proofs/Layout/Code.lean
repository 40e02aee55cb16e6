import Retouch.Proofs.Layout.Gaps

/-!
# Printing neither loses nor invents code

Blanks aside, a printed file is what its working tree says: the texts of the nodes with text, in
document order, between what the source has before its first statement and after its last. Nothing
of the source comes back that the working tree does not hold, and nothing that it holds is dropped,
repeated or moved, wherever its nodes come from.

The reason is that a node is kept only when its own texts are those of the slice it is kept as. So
one statement by induction covers kept and rebuilt nodes alike (`withoutBlanks_nodeText`), and the
theorem for whole trees (`withoutBlanks_print`) adds the two ends of the source.
-/

namespace Retouch

open Text

namespace Node

mutual

/-- The texts of the nodes with text at or below a node, in document order. A node with text hides
what is below it. -/
def texts : Node → List String
  | { text, children, .. } =>
    match text with
    | some text => [text]
    | none => textsList children

/-- The texts of a list of subtrees, in document order. -/
def textsList : List Node → List String
  | [] => []
  | node :: rest => texts node ++ textsList rest

end

/-- The texts of subtrees come one subtree after the other. -/
theorem textsList_eq_flatMap (nodes : List Node) : textsList nodes = nodes.flatMap texts := by
  induction nodes with
  | nil => rfl
  | cons node rest ih => rw [textsList, ih, List.flatMap_cons]

/-- A node with text has no other text. -/
theorem texts_of_text {node : Node} {text : String} (h : node.text = some text) :
    node.texts = [text] := by
  obtain ⟨_, _, _, _, _, _⟩ := node
  subst h
  rfl

/-- The texts of a node without text are those of its children. -/
theorem texts_of_branch {node : Node} (h : node.text = none) :
    node.texts = node.children.flatMap texts := by
  obtain ⟨_, _, _, _, _, _⟩ := node
  subst h
  exact textsList_eq_flatMap _

end Node

/-- The texts of a tree, in document order. -/
def Tree.texts (tree : Tree) : List String :=
  Node.textsList tree.statements

namespace Layout

variable {source : String} {root : Concrete} {parsed : Parsed} {tree : Tree}

/-- Blanks aside, a node prints as the texts at and below it. -/
theorem withoutBlanks_nodeText (h : Original source tree) (node : Node) :
    withoutBlanks (nodeText source tree node) = node.texts.flatMap withoutBlanks := by
  induction node using Node.childInduction with
  | step node ih =>
    cases htext : node.text with
    | some text =>
      rw [nodeText_of_text h htext, Node.texts_of_text htext, List.flatMap_singleton]
    | none =>
      rw [(woven_nodeText h htext).withoutBlanks, Node.texts_of_branch htext, List.flatMap_assoc,
        List.flatMap_map]
      exact List.flatMap_congr ih

/-- Blanks aside, a working tree prints as the source before its first statement, the texts of the
working tree in document order, and the source after its last statement. -/
theorem withoutBlanks_print (hread : root.read source = .ok parsed)
    (hfits : root.WellFormed source) (edited : Tree) :
    withoutBlanks (parsed.print edited) =
      withoutBlanks (parsed.tree.before source) ++ edited.texts.flatMap withoutBlanks ++
        withoutBlanks (parsed.tree.after source) := by
  have horiginal := Concrete.original_of_read hread hfits
  obtain ⟨body, hprint, hwoven⟩ := exists_print_eq horiginal edited
  have hbody : withoutBlanks body = edited.texts.flatMap withoutBlanks := by
    rw [hwoven.withoutBlanks, Tree.texts, Node.textsList_eq_flatMap, List.flatMap_assoc,
      List.flatMap_map]
    exact List.flatMap_congr fun node _ => withoutBlanks_nodeText horiginal node
  rw [Parsed.print_eq hread, hprint, withoutBlanks_append, withoutBlanks_append, hbody]

/-- A statement from another file, with identities that the small source uses for other nodes, in
front of the first statement of the small source. -/
def foreignEcho : Tree :=
  ⟨[{ kind := "echo_statement", origin := some ⟨1⟩, span := some ⟨6, 19⟩
      children :=
        [{ kind := "echo", text := some "echo", origin := some ⟨2⟩, span := some ⟨6, 10⟩ },
         { kind := "string", text := some "'ho'", origin := some ⟨3⟩, span := some ⟨12, 17⟩ },
         { kind := ";", text := some ";", origin := some ⟨7⟩, span := some ⟨18, 19⟩ }] },
    { kind := "php_tag", text := some "<?php", origin := some ⟨0⟩, span := some ⟨0, 5⟩ }]⟩

/-- The texts are those of the working tree, though its identities belong to other nodes of the
source. -/
theorem withoutBlanks_print_foreignEcho :
    greeting.read greetingSource = .ok greetingParsed ∧ greeting.WellFormed greetingSource ∧
      withoutBlanks (greetingParsed.print foreignEcho) = "echo'ho';<?php".toList := by
  have hread : greeting.read greetingSource = .ok greetingParsed := rfl
  have hfits : greeting.WellFormed greetingSource := by decide
  refine ⟨hread, hfits, ?_⟩
  rw [withoutBlanks_print hread hfits]
  decide

end Layout

end Retouch
