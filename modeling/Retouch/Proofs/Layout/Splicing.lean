import Retouch.Proofs.Layout.Gaps

/-!
# Edits are splices

When the nodes of a working tree stand where the source has them, printing puts the new texts into
the source and leaves all else alone. `Stands` says what that asks of a working node: it has the
range of its original, and either the new text that is chosen for the original, or the text of the
original and children that stand for its children. Its identity may be that of the original or
missing, and its kind and role are free.

* **Joined texts** (`join_eq_spliceTo`): neighbours that are lined up in the source are joined by
  the blanks of the source, so joining is splicing.
* **Both paths agree** (`nodeText_eq_spliceTo`): a branch prints as its range of the source with the
  texts of its children in their places, whether it is kept or rebuilt.
* **Whole trees** (`print_eq_splice_of_stands`), from the two and the nesting of splices.

Copies of the original in which some nodes were given new texts are of this sort, and so are copies
in which some nodes lost their identity.
-/

namespace Retouch

open Text

namespace Node

mutual

/-- The ranges and new texts of the outermost nodes at or below a node for which a new text is
chosen, in document order. -/
def splices (new : Node → Option String) : Node → List (Span × String)
  | node@{ children, .. } =>
    match new node with
    | some text => [(node.place, text)]
    | none => splicesList new children

/-- The same for a list of subtrees. -/
def splicesList (new : Node → Option String) : List Node → List (Span × String)
  | [] => []
  | node :: rest => splices new node ++ splicesList new rest

end

/-- Subtrees are spliced one after the other. -/
theorem splicesList_eq_flatMap (new : Node → Option String) (nodes : List Node) :
    splicesList new nodes = nodes.flatMap (splices new) := by
  induction nodes with
  | nil => rfl
  | cons node rest ih => rw [splicesList, ih, List.flatMap_cons]

/-- A node with a new text is spliced as a whole. -/
theorem splices_of_some {new : Node → Option String} {node : Node} {text : String}
    (h : new node = some text) : node.splices new = [(node.place, text)] := by
  obtain ⟨_, _, _, _, _, _⟩ := node
  simp only [splices, h]

/-- In a node without a new text the children are spliced. -/
theorem splices_of_none {new : Node → Option String} {node : Node} (h : new node = none) :
    node.splices new = node.children.flatMap (splices new) := by
  obtain ⟨_, _, _, _, _, _⟩ := node
  simp only [splices, h]
  exact splicesList_eq_flatMap new _

end Node

namespace Layout

variable {source : String} {tree : Tree} {new : Node → Option String}

/-! ### Joining neighbours of the source -/

/-- Every node of the list has a range. -/
def AllPlaced (nodes : List Node) : Prop :=
  ∀ node ∈ nodes, node.span = some node.place

/-- If there are only blanks between two neighbours in the source, they are the gap. -/
theorem gap_of_blankBetween {left right : Node} (hleft : left.span = some left.place)
    (hright : right.span = some right.place)
    (hblank : BlankBetween source left.place.stop right.place.start) (statements : Bool)
    (printed next : String) :
    gap source statements left right printed next =
      sliceString source ⟨left.place.stop, right.place.start⟩ := by
  have hgap : sourceGap? source left right =
      some (sliceString source ⟨left.place.stop, right.place.start⟩) := by
    rw [sourceGap?, hleft, hright]
    exact blankBetween?_eq_some_iff.mpr ⟨hblank, rfl⟩
  rw [gap, hgap, Option.getD_some]

/-- Joining lined-up nodes behind another one continues the source, up to the end of the last. -/
theorem joinAfter_eq_spliceTo (text : Node → String) (statements : Bool) {stop : Nat}
    {nodes : List Node} (hplaced : AllPlaced nodes) {left : Node}
    (hleft : left.span = some left.place)
    (hlined : Lined source stop left.place.stop (nodes.map Node.place)) (printed : String) :
    joinAfter source statements printed left (nodes.map fun node => (node, text node)) ++
        sliceString source ⟨((left :: nodes).getLast (List.cons_ne_nil _ _)).place.stop, stop⟩ =
      printed ++ spliceTo source stop left.place.stop
        (nodes.map fun node => (node.place, text node)) := by
  induction nodes generalizing left printed with
  | nil => rfl
  | cons right rest ih =>
    obtain ⟨hblank, -, hrest⟩ := hlined
    have hright := hplaced right List.mem_cons_self
    have hplaced' : AllPlaced rest := fun node hnode => hplaced node (List.mem_cons_of_mem _ hnode)
    rw [List.map_cons, joinAfter, gap_of_blankBetween hleft hright hblank, List.getLast_cons_cons,
      ih hplaced' hright hrest, List.map_cons, spliceTo]
    simp only [String.append_assoc]

/-- Joining lined-up nodes is splicing their texts into the source, from the start of the first to
the end of the last. -/
theorem join_eq_spliceTo (text : Node → String) (statements : Bool) {start stop : Nat}
    {first : Node} {rest : List Node} (hplaced : AllPlaced (first :: rest))
    (hlined : Lined source stop start ((first :: rest).map Node.place)) (printed : String) :
    join source statements (printed ++ sliceString source ⟨start, first.place.start⟩)
          ((first :: rest).map fun node => (node, text node)) ++
        sliceString source ⟨((first :: rest).getLast (List.cons_ne_nil _ _)).place.stop, stop⟩ =
      printed ++ spliceTo source stop start
        ((first :: rest).map fun node => (node.place, text node)) := by
  have hfirst := hplaced first List.mem_cons_self
  have hplaced' : AllPlaced rest := fun node hnode => hplaced node (List.mem_cons_of_mem _ hnode)
  rw [List.map_cons, join, joinAfter_eq_spliceTo text statements hplaced' hfirst hlined.2.2,
    List.map_cons, spliceTo]
  simp only [String.append_assoc]

/-- Joining nodes that are lined up from the first to the last adds nothing at the two ends. -/
theorem join_of_linedUp (text : Node → String) (statements : Bool) {nodes : List Node}
    (hplaced : AllPlaced nodes) {first last : Span}
    (hfirst : (nodes.map Node.place).head? = some first)
    (hlast : (nodes.map Node.place).getLast? = some last)
    (hlined : Lined source last.stop first.start (nodes.map Node.place)) (printed : String) :
    join source statements printed (nodes.map fun node => (node, text node)) =
      printed ++ spliceTo source last.stop first.start
        (nodes.map fun node => (node.place, text node)) := by
  cases nodes with
  | nil => cases hfirst
  | cons node rest =>
    obtain rfl : node.place = first := Option.some.inj hfirst
    rw [List.getLast?_map, List.getLast?_eq_some_getLast (List.cons_ne_nil _ _), Option.map_some,
      Option.some.injEq] at hlast
    have hjoin := join_eq_spliceTo text statements hplaced hlined printed
    rwa [hlast, sliceString_self, sliceString_self, String.append_empty, String.append_empty]
      at hjoin

/-- If the children are lined up in the range of the node, the gaps at its edges are what is around
them there. -/
theorem edgeGaps_of_lined {node first : Node} {rest : List Node}
    (hspan : node.span = some node.place) (hchildren : node.children = first :: rest)
    (hplaced : AllPlaced (first :: rest))
    (hlined : Lined source node.place.stop node.place.start ((first :: rest).map Node.place)) :
    edgeGaps source node =
      (sliceString source ⟨node.place.start, first.place.start⟩,
        sliceString source
          ⟨((first :: rest).getLast (List.cons_ne_nil _ _)).place.stop, node.place.stop⟩) := by
  have hfirst := hplaced first List.mem_cons_self
  have hlast := hplaced _ (List.getLast_mem (List.cons_ne_nil first rest))
  have hlead := blankBetween?_eq_some_iff.mpr ⟨hlined.1, rfl⟩
  have hend := hlined.last (List.cons_ne_nil _ _)
  rw [List.getLast_map] at hend
  have htrail := blankBetween?_eq_some_iff.mpr ⟨hend, rfl⟩
  rw [edgeGaps, hspan, hchildren, List.head?_cons, Option.bind_some, hfirst,
    List.getLast?_eq_some_getLast (List.cons_ne_nil _ _), Option.bind_some, hlast]
  simp only [hlead, htrail, Option.getD_some]

/-- A branch that is rebuilt where the source has it is spliced together. -/
theorem rebuild_eq_spliceTo {node : Node} (hspan : node.span = some node.place)
    (hplaced : AllPlaced node.children) (hbranch : node.children ≠ [])
    (hlined : Lined source node.place.stop node.place.start (node.children.map Node.place)) :
    rebuild source node (fragments (.ofTree source tree) node.children) =
      spliceTo source node.place.stop node.place.start
        (node.children.map fun child => (child.place, nodeText source tree child)) := by
  rw [rebuild_eq, withTexts]
  cases hchildren : node.children with
  | nil => exact absurd hchildren hbranch
  | cons first rest =>
    rw [hchildren] at hplaced hlined
    rw [edgeGaps_of_lined hspan hchildren hplaced hlined]
    have hjoin := join_eq_spliceTo (nodeText source tree) false hplaced hlined ""
    rwa [String.empty_append, String.empty_append] at hjoin

/-! ### Nodes that stand where the source has them -/

/-- A working node stands for a node of the source: it has the range of that node, and its identity
or none; and it has the new text that is chosen for that node, or else the text of that node and
children that stand for its children. -/
inductive Stands (new : Node → Option String) : (base node : Node) → Prop
  | reworded {base node : Node} {text : String} (hspan : node.span = base.span)
      (horigin : node.origin = none ∨ node.origin = base.origin) (hnew : new base = some text)
      (htext : node.text = some text) : Stands new base node
  | same {base node : Node} (hspan : node.span = base.span)
      (horigin : node.origin = none ∨ node.origin = base.origin) (hnew : new base = none)
      (htext : node.text = base.text)
      (hchildren : List.Forall₂ (Stands new) base.children node.children) : Stands new base node

/-- A node has the range of the one that it stands for. -/
theorem Stands.span_eq {base node : Node} (h : Stands new base node) : node.span = base.span := by
  cases h <;> assumption

/-- A node has the place of the one that it stands for. -/
theorem Stands.place_eq {base node : Node} (h : Stands new base node) :
    node.place = base.place := by
  rw [Node.place, h.span_eq, ← Node.place]

/-- Nodes have the places of those that they stand for. -/
theorem map_place_of_stands {bases nodes : List Node}
    (h : List.Forall₂ (Stands new) bases nodes) :
    nodes.map Node.place = bases.map Node.place := by
  induction h with
  | nil => rfl
  | cons hfirst _ ih => rw [List.map_cons, List.map_cons, hfirst.place_eq, ih]

/-- Nodes have ranges if those that they stand for have. -/
theorem allPlaced_of_stands {bases nodes : List Node}
    (h : List.Forall₂ (Stands new) bases nodes) (hbases : AllPlaced bases) : AllPlaced nodes := by
  induction h with
  | nil => exact hbases
  | @cons base node bases nodes hfirst _ ih =>
    intro other hother
    rcases List.mem_cons.mp hother with rfl | hother
    · rw [hfirst.span_eq, hfirst.place_eq]
      exact hbases base List.mem_cons_self
    · exact ih (fun node hnode => hbases node (List.mem_cons_of_mem _ hnode)) other hother

/-! ### Both paths agree -/

/-- Kept nodes put the slices of their ranges back where these came from. -/
theorem map_nodeText_of_kept_in_place {bases nodes : List Node}
    (hkept : fragments (.ofTree source tree) nodes = bases.map fun base => .kept base.place)
    (hplaces : nodes.map Node.place = bases.map Node.place) :
    (nodes.map fun node => (node.place, nodeText source tree node)) =
      (bases.map Node.place).map fun span => (span, sliceString source span) := by
  rw [← List.zip_map', map_nodeText_of_kept hkept, hplaces, ← List.map_prod_left_eq_zip]

/-- A branch that stands where the source has it prints as its range of the source, with the texts
of its children in their places: as a slice of the source when it is kept, and put together when it
is rebuilt. -/
theorem nodeText_eq_spliceTo (h : Original source tree) {base node : Node}
    (hbase : base ∈ tree.nodes) (hbranch : base.children ≠ []) (hspan : node.span = base.span)
    (horigin : node.origin = none ∨ node.origin = base.origin) (htext : node.text = none)
    (hplaced : AllPlaced node.children)
    (hplaces : node.children.map Node.place = base.children.map Node.place) :
    nodeText source tree node =
      spliceTo source base.place.stop base.place.start
        (node.children.map fun child => (child.place, nodeText source tree child)) := by
  have hsettled := h.settled base hbase
  have hlined := hsettled.lined hbranch
  have hplace : node.place = base.place := by rw [Node.place, hspan, ← Node.place]
  rcases fragment_branch_cases h htext with ⟨other, hother, hsame, -, hkept, hchildren⟩ | hfresh
  · -- the node it is kept for can only be its own original
    have hid := h.identified other hother
    have hbase' : other = base := by
      rcases horigin with hnone | horigin
      · rw [hsame, hnone] at hid
        cases hid
      · exact h.eq_of_origin hother hbase (hsame.trans horigin)
    subst hbase'
    rw [map_nodeText_of_kept_in_place hchildren hplaces, spliceTo_self hlined.inOrder, nodeText,
      hkept]
    rfl
  · rw [← hplaces] at hlined
    have hbranch' : node.children ≠ [] := by
      intro hnil
      rw [hnil] at hplaces
      exact hbranch (List.map_eq_nil_iff.mp hplaces.symm)
    rw [← hplace] at hlined ⊢
    rw [nodeText, hfresh]
    exact rebuild_eq_spliceTo (by rw [hspan, hsettled.span_eq, hplace]) hplaced hbranch' hlined

/-! ### Splices of whole trees -/

/-- The ranges of nodes, each with what is to be replaced inside of it. -/
def nestedEdits (new : Node → Option String) (nodes : List Node) : NestedEdits :=
  nodes.map fun node => (node.place, node.splices new)

/-- The ranges of nodes that are lined up are in order. -/
theorem inOrder_map_fst_nestedEdits (new : Node → Option String) {start stop : Nat}
    {nodes : List Node} (h : Lined source stop start (nodes.map Node.place)) :
    InOrder source stop start ((nestedEdits new nodes).map Prod.fst) := by
  have hplaces : (nestedEdits new nodes).map Prod.fst = nodes.map Node.place := by
    rw [nestedEdits, List.map_map]
    rfl
  rw [hplaces]
  exact h.inOrder

/-- What is to be replaced inside of nodes is what is spliced in them. -/
theorem flatMap_snd_nestedEdits (nodes : List Node) :
    (nestedEdits new nodes).flatMap Prod.snd = nodes.flatMap (Node.splices new) := by
  rw [nestedEdits, List.flatMap_map]

/-- What is spliced in nodes is in order inside of each if it is for each node. -/
theorem inOrder_nestedEdits {nodes : List Node}
    (h : ∀ node ∈ nodes,
      InOrder source node.place.stop node.place.start ((node.splices new).map Prod.fst)) :
    (nestedEdits new nodes).InOrder source := by
  intro entry hentry
  obtain ⟨node, hnode, rfl⟩ := List.mem_map.mp hentry
  exact h node hnode

/-- The ranges to be replaced at or below a node of the source are in order inside of its range. -/
theorem inOrder_splices (h : Original source tree) {base : Node} (hbase : base ∈ tree.nodes) :
    InOrder source base.place.stop base.place.start ((base.splices new).map Prod.fst) := by
  induction base using Node.childInduction with
  | step base ih =>
    have hsettled := h.settled base hbase
    cases hnew : new base with
    | some text =>
      rw [Node.splices_of_some hnew]
      exact ⟨hsettled.hasSlice.atStart, hsettled.hasSlice, hsettled.hasSlice.atStop⟩
    | none =>
      rw [Node.splices_of_none hnew]
      by_cases hleaf : base.children = []
      · rw [hleaf]
        exact hsettled.hasSlice
      · have hchildren : (nestedEdits new base.children).InOrder source :=
          inOrder_nestedEdits fun child hchild =>
            ih child hchild (tree.mem_nodes_of_child hbase hchild)
        rw [← flatMap_snd_nestedEdits]
        exact (inOrder_map_fst_nestedEdits new (hsettled.lined hleaf)).flatten hchildren

/-- Nodes of the source, with what is to be replaced inside of their ranges. -/
theorem inOrder_nestedEdits_of_mem (new : Node → Option String) (h : Original source tree)
    {bases : List Node} (hbases : ∀ base ∈ bases, base ∈ tree.nodes) :
    (nestedEdits new bases).InOrder source :=
  inOrder_nestedEdits fun base hbase => inOrder_splices h (hbases base hbase)

/-- Nodes that stand for nodes of the source, with the texts that they print as: each is the range
of its original with the replacements inside of it, when this is known node by node. -/
theorem map_nodeText_of_stands {bases nodes : List Node}
    (h : List.Forall₂ (Stands new) bases nodes)
    (htext : ∀ base ∈ bases, ∀ node, Stands new base node → nodeText source tree node =
      spliceTo source base.place.stop base.place.start (base.splices new)) :
    (nodes.map fun node => (node.place, nodeText source tree node)) =
      (nestedEdits new bases).map fun entry =>
        (entry.1, spliceTo source entry.1.stop entry.1.start entry.2) := by
  induction h with
  | nil => rfl
  | @cons base node bases nodes hfirst _ ih =>
    rw [nestedEdits, List.map_cons, List.map_cons, List.map_cons,
      ih fun other hother => htext other (List.mem_cons_of_mem _ hother), hfirst.place_eq,
      htext base List.mem_cons_self node hfirst]
    rfl

/-- A node that stands where the source has it prints as its range of the source with the new texts
in their places. -/
theorem nodeText_of_stands (h : Original source tree) {base node : Node} (hbase : base ∈ tree.nodes)
    (hstands : Stands new base node) :
    nodeText source tree node =
      spliceTo source base.place.stop base.place.start (base.splices new) := by
  induction base using Node.childInduction generalizing node with
  | step base ih =>
    have hsettled := h.settled base hbase
    cases hstands with
    | reworded hspan horigin hnew htext =>
      rw [nodeText_of_text h htext, Node.splices_of_some hnew, spliceTo, spliceTo,
        sliceString_self, sliceString_self, String.empty_append, String.append_empty]
    | same hspan horigin hnew htext hchildren =>
      rw [Node.splices_of_none hnew]
      by_cases hleaf : base.children = []
      · rw [nodeText_of_text h (htext.trans (hsettled.leaf hleaf)), hleaf]
        rfl
      · have hbelow : ∀ child ∈ base.children, child ∈ tree.nodes :=
          fun child hchild => tree.mem_nodes_of_child hbase hchild
        have hplaced : AllPlaced base.children :=
          fun child hchild => (h.settled child (hbelow child hchild)).span_eq
        rw [nodeText_eq_spliceTo h hbase hleaf hspan horigin (htext.trans (hsettled.branch hleaf))
            (allPlaced_of_stands hchildren hplaced) (map_place_of_stands hchildren),
          map_nodeText_of_stands hchildren fun child hchild other hother =>
            ih child hchild (hbelow child hchild) hother,
          spliceTo_flatten (inOrder_map_fst_nestedEdits new (hsettled.lined hleaf))
            (inOrder_nestedEdits_of_mem new h hbelow),
          flatMap_snd_nestedEdits]

/-- The ranges to be replaced in a tree are in order in the source. -/
theorem inOrder_splicesList (h : Original source tree) :
    InOrder source source.utf8ByteSize 0
      ((Node.splicesList new tree.statements).map Prod.fst) := by
  rw [Node.splicesList_eq_flatMap]
  rcases statements_cases h with ⟨hnil, -, -, -⟩ | ⟨first, last, -, -, hlined, -, -, -⟩
  · rw [hnil]
    exact hasSlice_of_eq (sliceString?_whole source)
  · have hbody := (inOrder_map_fst_nestedEdits new hlined).flatten
      (inOrder_nestedEdits_of_mem new h fun base => Tree.mem_nodes_of_statement)
    have hbefore : InOrder source first.start 0 [] := hlined.inOrder.hasSlice.before
    have hafter : InOrder source source.utf8ByteSize last.stop [] := hlined.inOrder.hasSlice.after
    have hall := (hbefore.append hbody).append hafter
    rwa [List.nil_append, List.append_nil, flatMap_snd_nestedEdits] at hall

/-- A working tree whose statements stand where the source has them prints as the source with the
new texts in their places. -/
theorem print_eq_splice_of_stands (h : Original source tree) {edited : Tree}
    (hstands : List.Forall₂ (Stands new) tree.statements edited.statements) :
    print tree source edited = splice source (Node.splicesList new tree.statements) := by
  rw [Node.splicesList_eq_flatMap]
  rcases statements_cases h with
    ⟨hnil, -, hbefore, hafter⟩ | ⟨first, last, hfirst, hlast, hlined, -, hbefore, hafter⟩
  · rw [hnil] at hstands ⊢
    have hedited : edited.statements = [] := List.forall₂_nil_left_iff.mp hstands
    rw [List.flatMap_nil, splice_nil]
    rcases print_cases h edited with ⟨-, hprint⟩ | hprint
    · exact hprint
    · rw [hprint, hedited, hbefore, hafter, String.append_empty]
      rfl
  · have hplaces := map_place_of_stands hstands
    have hplaced : AllPlaced edited.statements := allPlaced_of_stands hstands fun base hbase =>
      (h.settled base (Tree.mem_nodes_of_statement hbase)).span_eq
    -- what is replaced lies inside of the statements, so each of them is spliced on its own
    have houter := inOrder_map_fst_nestedEdits new hlined
    have hinner := inOrder_nestedEdits_of_mem new h fun base => Tree.mem_nodes_of_statement
    have hsplice := splice_eq (houter.flatten hinner)
    rw [← spliceTo_flatten houter hinner, flatMap_snd_nestedEdits,
      ← map_nodeText_of_stands hstands fun base hbase node hnode =>
        nodeText_of_stands h (Tree.mem_nodes_of_statement hbase) hnode] at hsplice
    rw [hsplice]
    rcases print_cases h edited with ⟨hkept, hprint⟩ | hprint
    · rw [hprint, map_nodeText_of_kept_in_place hkept hplaces, spliceTo_self hlined.inOrder,
        source_eq_of_lined hlined]
    · rw [← hplaces] at hfirst hlast hlined
      rw [hprint, withTexts, join_of_linedUp _ true hplaced hfirst hlast hlined, hbefore, hafter]

end Layout

end Retouch
