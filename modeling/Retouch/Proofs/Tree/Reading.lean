import Mathlib.Data.List.Nodup
import Retouch.Proofs.Text.Woven
import Retouch.Tree.Concrete

/-!
# What reading a source gives

A concrete tree is **well formed** for a source (`Concrete.WellFormed`) when its ranges are parts of
the source, the ranges of neighbours are in order and without overlap, children stay inside of their
parent, and all that is left between neighbours and at the inner edges of a parent is blank. Nothing
is asked of the range of the root: only its children become statements.

Reading turns such a tree into an **original** tree (`Original`). Two facts about it carry all that
is known about printing:

* **Identities** (`Numbered`): every node has one, and no two nodes share one, because they are
  counted in document order (`origins_toNode`).
* **Places** (`Node.Settled`): every node has a range that is a part of the source; a leaf has the
  text of its range, and the children of a branch are lined up in its range.

Both are said node by node over the list of all nodes, so that a proof that goes down a tree keeps
them by membership alone.
-/

namespace Retouch

open Text

/-! ### Nodes in document order -/

namespace Node

mutual

/-- Induction on a node from its children. -/
@[elab_as_elim]
theorem childInduction {motive : Node → Prop}
    (step : ∀ node, (∀ child ∈ node.children, motive child) → motive node) :
    (node : Node) → motive node
  | ⟨kind, field, text, children, origin, span⟩ =>
      step ⟨kind, field, text, children, origin, span⟩ (childInduction_list step children)

/-- The same for all nodes of a list. -/
theorem childInduction_list {motive : Node → Prop}
    (step : ∀ node, (∀ child ∈ node.children, motive child) → motive node) :
    (nodes : List Node) → ∀ node ∈ nodes, motive node
  | [], _, hnode => absurd hnode List.not_mem_nil
  | first :: rest, node, hnode => by
      rcases List.mem_cons.mp hnode with hfirst | hrest
      · rw [hfirst]
        exact childInduction step first
      · exact childInduction_list step rest node hrest

end

/-- The nodes of subtrees come one subtree after the other. -/
theorem preorderList_eq_flatMap (nodes : List Node) :
    preorderList nodes = nodes.flatMap preorder := by
  induction nodes with
  | nil => rfl
  | cons node rest ih => rw [preorderList, ih, List.flatMap_cons]

/-- A node comes before all nodes below it. -/
theorem preorder_eq (node : Node) : node.preorder = node :: preorderList node.children := by
  cases node
  rfl

/-- A node is among its own nodes. -/
theorem mem_preorder_self (node : Node) : node ∈ node.preorder := by
  rw [preorder_eq]
  exact List.mem_cons_self

/-- The subtrees themselves are among the nodes, in the same order. -/
theorem sublist_preorderList (nodes : List Node) : nodes.Sublist (preorderList nodes) := by
  induction nodes with
  | nil => exact .slnil
  | cons node rest ih =>
    rw [preorderList, preorder_eq, List.cons_append]
    exact (ih.trans (List.sublist_append_right _ _)).cons_cons node

/-- A subtree is one of the nodes. -/
theorem mem_preorderList {node : Node} {nodes : List Node} (h : node ∈ nodes) :
    node ∈ preorderList nodes :=
  (sublist_preorderList nodes).subset h

/-- The children of a node at or below another one are below that one too. -/
theorem mem_preorder_of_child {node parent child : Node} (hchild : child ∈ parent.children)
    (hparent : parent ∈ node.preorder) : child ∈ node.preorder := by
  induction node using childInduction with
  | step node ih =>
    rw [preorder_eq, List.mem_cons] at hparent ⊢
    right
    rcases hparent with rfl | hparent
    · exact mem_preorderList hchild
    · rw [preorderList_eq_flatMap, List.mem_flatMap] at hparent ⊢
      obtain ⟨other, hother, hbelow⟩ := hparent
      exact ⟨other, hother, ih other hother hbelow⟩

end Node

/-- A statement is a node of the tree. -/
theorem Tree.mem_nodes_of_statement {tree : Tree} {node : Node} (h : node ∈ tree.statements) :
    node ∈ tree.nodes :=
  Node.mem_preorderList h

/-- A child of a node of the tree is a node of the tree. -/
theorem Tree.mem_nodes_of_child {tree : Tree} {parent child : Node} (hparent : parent ∈ tree.nodes)
    (hchild : child ∈ parent.children) : child ∈ tree.nodes := by
  rw [Tree.nodes, Node.preorderList_eq_flatMap, List.mem_flatMap] at hparent ⊢
  obtain ⟨statement, hstatement, hbelow⟩ := hparent
  exact ⟨statement, hstatement, Node.mem_preorder_of_child hchild hbelow⟩

/-! ### Well-formed concrete trees -/

namespace Concrete

mutual

/-- The range of the node is a part of the source, its children are lined up inside of the range,
and the same holds of the children. -/
def Fits (source : String) : Concrete → Prop
  | { span, children, .. } =>
    HasSlice source span ∧
      (children ≠ [] → Lined source span.stop span.start (children.map Concrete.span)) ∧
      FitAll source children

/-- Every node of a list fits the source. -/
def FitAll (source : String) : List Concrete → Prop
  | [] => True
  | node :: rest => node.Fits source ∧ FitAll source rest

end

/-- The tree of a whole source, whose children are the statements: all of them fit, and they are
lined up from the start of the first to the end of the last. -/
structure WellFormed (source : String) (root : Concrete) : Prop where
  fit : FitAll source root.children
  lined : LinedUp source (root.children.map Concrete.span)

mutual

/-- Decides whether a node fits. -/
def decFits (source : String) : (node : Concrete) → Decidable (node.Fits source)
  | { span, children, .. } =>
    have := decFitAll source children
    inferInstanceAs (Decidable (HasSlice source span ∧
      (children ≠ [] → Lined source span.stop span.start (children.map Concrete.span)) ∧
      FitAll source children))

/-- Decides whether all nodes of a list fit. -/
def decFitAll (source : String) : (nodes : List Concrete) → Decidable (FitAll source nodes)
  | [] => inferInstanceAs (Decidable True)
  | node :: rest =>
    have := decFits source node
    have := decFitAll source rest
    inferInstanceAs (Decidable (node.Fits source ∧ FitAll source rest))

end

instance (source : String) (nodes : List Concrete) : Decidable (FitAll source nodes) :=
  decFitAll source nodes

instance (source : String) (root : Concrete) : Decidable (root.WellFormed source) :=
  decidable_of_iff
    (FitAll source root.children ∧ LinedUp source (root.children.map Concrete.span))
    ⟨fun h => ⟨h.1, h.2⟩, fun h => ⟨h.fit, h.lined⟩⟩

end Concrete

/-! ### Identities -/

/-- Every node has an identity, and no two nodes have the same. -/
structure Numbered (tree : Tree) : Prop where
  identified : ∀ node ∈ tree.nodes, node.origin.isSome
  distinct : (tree.nodes.map Node.origin).Nodup

/-- A node of a numbered tree is found by its identity. -/
theorem Numbered.eq_of_origin {tree : Tree} (h : Numbered tree) {a b : Node} (ha : a ∈ tree.nodes)
    (hb : b ∈ tree.nodes) (hab : a.origin = b.origin) : a = b :=
  List.inj_on_of_nodup_map h.distinct ha hb hab

/-- No two statements of a numbered tree are the same. -/
theorem Numbered.nodup_statements {tree : Tree} (h : Numbered tree) : tree.statements.Nodup :=
  (h.distinct.of_map Node.origin).sublist (Node.sublist_preorderList tree.statements)

namespace Concrete

/-- The identities from `next` on. -/
def idsFrom (next count : Nat) : List (Option NodeId) :=
  (List.range' next count).map fun index => some ⟨index⟩

/-- Identities that follow each other are counted on. -/
theorem idsFrom_append (next first second : Nat) :
    idsFrom next first ++ idsFrom (next + first) second = idsFrom next (first + second) := by
  unfold idsFrom
  rw [← List.map_append, List.range'_append_1]

/-- The neighbours of a node are numbered after it and all nodes below it. -/
theorem toNodes_cons (source : String) (next : Nat) (node : Concrete) (rest : List Concrete) :
    toNodes source next (node :: rest) =
      ((node.toNode source next).1 :: (toNodes source (node.toNode source next).2 rest).1,
        (toNodes source (node.toNode source next).2 rest).2) :=
  rfl

mutual

/-- The identities at and below a node are counted in document order. -/
theorem origins_toNode (source : String) :
    (node : Concrete) → ∀ next, ∃ count, (node.toNode source next).2 = next + count ∧
      (node.toNode source next).1.preorder.map Node.origin = idsFrom next count
  | ⟨kind, field, span, _, _, _, []⟩, next => by
      exact ⟨1, rfl, by simp [toNode, Node.preorder, Node.preorderList, idsFrom]⟩
  | ⟨kind, field, span, _, _, _, first :: rest⟩, next => by
      obtain ⟨count, hnext, horigins⟩ := origins_toNodes source (first :: rest) (next + 1)
      refine ⟨1 + count, ?_, ?_⟩
      · rw [toNode, hnext, Nat.add_assoc]
      · rw [toNode, Node.preorder_eq, List.map_cons, horigins, ← idsFrom_append]
        rfl

/-- The same for a list of nodes. -/
theorem origins_toNodes (source : String) :
    (nodes : List Concrete) → ∀ next, ∃ count, (toNodes source next nodes).2 = next + count ∧
      (Node.preorderList (toNodes source next nodes).1).map Node.origin = idsFrom next count
  | [], next => ⟨0, rfl, by simp [toNodes, Node.preorderList, idsFrom]⟩
  | node :: rest, next => by
      obtain ⟨count, hnext, horigins⟩ := origins_toNode source node next
      obtain ⟨count', hnext', horigins'⟩ := origins_toNodes source rest (next + count)
      rw [toNodes_cons, hnext]
      refine ⟨count + count', ?_, ?_⟩
      · rw [hnext', Nat.add_assoc]
      · rw [Node.preorderList, List.map_append, horigins, horigins', idsFrom_append]

end

end Concrete

/-! ### Places -/

/-- The range of a node, for a node that has one. -/
def Node.place (node : Node) : Span :=
  node.span.getD ⟨0, 0⟩

/-- What a source says of one of its nodes: its range is a part of the source, a leaf has the text
of its range, and the children of a branch are lined up in its range. -/
structure Node.Settled (source : String) (node : Node) : Prop where
  span_eq : node.span = some node.place
  hasSlice : HasSlice source node.place
  leaf : node.children = [] → node.text = some (sliceString source node.place)
  branch : node.children ≠ [] → node.text = none
  lined : node.children ≠ [] →
    Lined source node.place.stop node.place.start (node.children.map Node.place)

/-- A tree as it is read from a source whose concrete tree is well formed. -/
structure Original (source : String) (tree : Tree) : Prop extends Numbered tree where
  settled : ∀ node ∈ tree.nodes, node.Settled source
  lined : LinedUp source (tree.statements.map Node.place)

namespace Concrete

/-- A working node has the range of the concrete one. -/
theorem place_toNode (source : String) (next : Nat) (node : Concrete) :
    (node.toNode source next).1.place = node.span := by
  obtain ⟨_, _, _, _, _, _, children⟩ := node
  cases children <;> rfl

/-- Working nodes have the ranges of the concrete ones. -/
theorem map_place_toNodes (source : String) (nodes : List Concrete) (next : Nat) :
    (toNodes source next nodes).1.map Node.place = nodes.map Concrete.span := by
  induction nodes generalizing next with
  | nil => rfl
  | cons node rest ih =>
    rw [toNodes_cons, List.map_cons, place_toNode, ih, List.map_cons]

mutual

/-- Every node at or below a node that fits is settled. -/
theorem settled_toNode (source : String) :
    (node : Concrete) → ∀ next, node.Fits source →
      ∀ below ∈ (node.toNode source next).1.preorder, below.Settled source
  | ⟨kind, field, span, _, _, _, []⟩, next, hfits, below, hbelow => by
      rw [toNode, Node.preorder_eq, List.mem_cons] at hbelow
      rcases hbelow with rfl | hbelow
      · exact ⟨rfl, hfits.1, fun _ => rfl, fun h => absurd rfl h, fun h => absurd rfl h⟩
      · simp [Node.preorderList] at hbelow
  | ⟨kind, field, span, _, _, _, first :: rest⟩, next, hfits, below, hbelow => by
      obtain ⟨hslice, hlined, hall⟩ := hfits
      rw [toNode, Node.preorder_eq, List.mem_cons] at hbelow
      rcases hbelow with rfl | hbelow
      · have hplaces := map_place_toNodes source (first :: rest) (next + 1)
        refine ⟨rfl, hslice, ?_, fun _ => rfl, fun _ => ?_⟩
        · intro hnil
          rw [toNodes_cons] at hnil
          exact absurd hnil (List.cons_ne_nil _ _)
        · show Lined source span.stop span.start
            ((toNodes source (next + 1) (first :: rest)).1.map Node.place)
          rw [hplaces]
          exact hlined (List.cons_ne_nil _ _)
      · exact settled_toNodes source (first :: rest) (next + 1) hall below hbelow

/-- The same for a list of nodes. -/
theorem settled_toNodes (source : String) :
    (nodes : List Concrete) → ∀ next, FitAll source nodes →
      ∀ below ∈ Node.preorderList (toNodes source next nodes).1, below.Settled source
  | [], next, _, below, hbelow => by simp [toNodes, Node.preorderList] at hbelow
  | node :: rest, next, hfits, below, hbelow => by
      rw [toNodes_cons, Node.preorderList, List.mem_append] at hbelow
      rcases hbelow with hbelow | hbelow
      · exact settled_toNode source node next hfits.1 below hbelow
      · exact settled_toNodes source rest _ hfits.2 below hbelow

end

/-! ### Reading -/

variable {source : String} {root : Concrete} {parsed : Parsed}

/-- What is read are the children of the root as statements, numbered from zero, and their
tokens. -/
theorem read_eq_ok (h : root.read source = .ok parsed) :
    parsed = ⟨⟨(toNodes source 0 root.children).1⟩, ⟨source, tokensList root.children⟩⟩ := by
  unfold read at h
  split at h
  · split at h <;> cases h
  · exact (Except.ok.inj h).symm

/-- Whatever its ranges are, a tree that is read has distinct identities. -/
theorem numbered_of_read (h : root.read source = .ok parsed) : Numbered parsed.tree := by
  obtain ⟨count, -, horigins⟩ := origins_toNodes source root.children 0
  have htree : parsed.tree.nodes.map Node.origin = idsFrom 0 count := by
    rw [read_eq_ok h]
    exact horigins
  constructor
  · intro node hnode
    have hmem : node.origin ∈ idsFrom 0 count := htree ▸ List.mem_map_of_mem hnode
    obtain ⟨index, -, hindex⟩ := List.mem_map.mp hmem
    rw [← hindex, Option.isSome_some]
  · rw [htree]
    refine List.Nodup.map ?_ List.nodup_range'
    intro a b hab
    simpa using hab

/-- A well-formed concrete tree is read as an original tree. -/
theorem original_of_read (h : root.read source = .ok parsed) (hfits : root.WellFormed source) :
    Original source parsed.tree := by
  refine ⟨numbered_of_read h, ?_, ?_⟩
  · rw [read_eq_ok h]
    exact settled_toNodes source root.children 0 hfits.fit
  · rw [read_eq_ok h]
    show LinedUp source ((toNodes source 0 root.children).1.map Node.place)
    rw [map_place_toNodes]
    exact hfits.lined

end Concrete

/-! ### A small source

Two statements with uneven spaces, and a character of two bytes.
-/

/-- The source of `greeting`. -/
def greetingSource : String :=
  "<?php\necho  'hé' ;\n"

/-- The concrete tree of a small source. -/
def greeting : Concrete :=
  { kind := "program", span := ⟨0, 20⟩
    children :=
      [{ kind := "php_tag", span := ⟨0, 5⟩ },
       { kind := "echo_statement", span := ⟨6, 19⟩
         children :=
           [{ kind := "echo", span := ⟨6, 10⟩ },
            { kind := "string", span := ⟨12, 17⟩
              children :=
                [{ kind := "'", span := ⟨12, 13⟩ },
                 { kind := "string_content", span := ⟨13, 16⟩ },
                 { kind := "'", span := ⟨16, 17⟩ }] },
            { kind := ";", span := ⟨18, 19⟩ }] }] }

/-- What is read from the small source. -/
def greetingParsed : Parsed :=
  ⟨⟨(Concrete.toNodes greetingSource 0 greeting.children).1⟩,
    ⟨greetingSource, Concrete.tokensList greeting.children⟩⟩

end Retouch
