import Retouch.Proofs.Layout.Gaps
import Retouch.Proofs.Tree.Editing

/-!
# New code prints the same everywhere

The code of a node on its own and the text that it gets inside of a printed file come from the same
rules. For a **fresh** node, which has no identity and no range at or below it, they are the same
text, whatever the source, the original tree and the working tree around it are.

* **Joining** asks the nodes that it joins for two things only, whether they stand on lines of their
  own and what the source has between them (`SameGaps`). Where these agree, the joined texts do
  (`rebuild_congr`).
* **On its own** a node has an empty source, so ranges that are not empty find nothing in it, and
  the code stays the same when all marks and roles are erased (`toCode_erased`).
* **In a file** a fresh node is never kept, and its gaps are never those of the source
  (`fragment_of_fresh`). So it may be put in its place as one leaf that holds its code
  (`print_of_swap_code`), and if no text hides it, the code is a part of what is printed
  (`exists_print_eq_of_exposed`).
-/

namespace Retouch

open Text

namespace Node

/-! ### Marks -/

/-- No node at or below the node has an identity or a range. -/
def Fresh (node : Node) : Prop :=
  ∀ below ∈ node.preorder, below.origin = none ∧ below.span = none

instance (node : Node) : Decidable node.Fresh :=
  inferInstanceAs (Decidable (∀ below ∈ node.preorder, below.origin = none ∧ below.span = none))

/-- No range at or below the node is empty. -/
def Solid (node : Node) : Prop :=
  ∀ below ∈ node.preorder, ∀ span ∈ below.span, span.start < span.stop

instance (node : Node) : Decidable node.Solid :=
  inferInstanceAs (Decidable (∀ below ∈ node.preorder, ∀ span ∈ below.span, span.start < span.stop))

/-- A fresh node has no identity. -/
theorem Fresh.origin_eq {node : Node} (h : node.Fresh) : node.origin = none :=
  (h node node.mem_preorder_self).1

/-- A fresh node has no range. -/
theorem Fresh.span_eq {node : Node} (h : node.Fresh) : node.span = none :=
  (h node node.mem_preorder_self).2

/-- The children of a fresh node are fresh. -/
theorem Fresh.child {node child : Node} (h : node.Fresh) (hchild : child ∈ node.children) :
    child.Fresh :=
  fun below hbelow => h below (mem_preorder_below hchild hbelow)

/-- The children of a solid node are solid. -/
theorem Solid.child {node child : Node} (h : node.Solid) (hchild : child ∈ node.children) :
    child.Solid :=
  fun below hbelow => h below (mem_preorder_below hchild hbelow)

mutual

/-- The node and all nodes below it without identities, ranges and roles. -/
def erased : Node → Node
  | { kind, text, children, .. } => { kind, text, children := erasedAll children }

/-- The same for a list of subtrees. -/
def erasedAll : List Node → List Node
  | [] => []
  | node :: rest => erased node :: erasedAll rest

end

/-- Subtrees are erased one by one. -/
theorem erasedAll_eq_map (nodes : List Node) : erasedAll nodes = nodes.map erased := by
  induction nodes with
  | nil => rfl
  | cons node rest ih => rw [erasedAll, ih, List.map_cons]

/-- An erased node keeps its kind and text, and its children are erased. -/
theorem erased_eq (node : Node) :
    node.erased =
      { kind := node.kind, text := node.text, children := node.children.map erased } := by
  cases node
  rw [erased, erasedAll_eq_map]

end Node

/-- The node is one of some subtrees or below them, and no node above it has text. -/
inductive Exposed (node : Node) : List Node → Prop
  | here {nodes : List Node} (hnode : node ∈ nodes) : Exposed node nodes
  | inside {nodes : List Node} {outer : Node} (houter : outer ∈ nodes) (htext : outer.text = none)
      (hnode : Exposed node outer.children) : Exposed node nodes

namespace Layout

/-! ### What joining depends on -/

section joining

variable {source source' : String} {tree tree' : Tree} {alike : Node → Node → Prop}

/-- Neighbours that are alike, node by node, have the same gaps in two sources. -/
def SameGaps (source source' : String) (alike : Node → Node → Prop) : Prop :=
  ∀ left left' right right', alike left left' → alike right right' →
    isStatementLike left = isStatementLike left' ∧ isStatementLike right = isStatementLike right' ∧
      sourceGap? source left right = sourceGap? source' left' right'

/-- Neighbours that are alike have the same gap. -/
theorem SameGaps.gap_eq (h : SameGaps source source' alike) {left left' right right' : Node}
    (hleft : alike left left') (hright : alike right right') (statements : Bool)
    (printed next : String) :
    gap source statements left right printed next =
      gap source' statements left' right' printed next := by
  obtain ⟨hleftKind, hrightKind, hgap⟩ := h left left' right right' hleft hright
  unfold gap fallbackGap
  rw [hleftKind, hrightKind, hgap]

/-- Nodes with texts that are joined in the same way. -/
def JoinAlike (alike : Node → Node → Prop) (item item' : Node × String) : Prop :=
  alike item.1 item'.1 ∧ item.2 = item'.2

/-- Nodes that are alike, with the same texts, are joined in the same way behind nodes that are
alike. -/
theorem joinAfter_congr (h : SameGaps source source' alike) (statements : Bool)
    {items items' : List (Node × String)} (hitems : List.Forall₂ (JoinAlike alike) items items')
    {left left' : Node} (hleft : alike left left') (printed : String) :
    joinAfter source statements printed left items =
      joinAfter source' statements printed left' items' := by
  induction hitems generalizing left left' printed with
  | nil => rfl
  | @cons item item' rest rest' hitem _ ih =>
    obtain ⟨right, text⟩ := item
    obtain ⟨right', text'⟩ := item'
    obtain ⟨hright, htext⟩ := hitem
    simp only at hright htext
    subst htext
    rw [joinAfter, joinAfter, h.gap_eq hleft hright]
    exact ih hright _

/-- Nodes that are alike, with the same texts, are joined in the same way. -/
theorem join_congr (h : SameGaps source source' alike) (statements : Bool)
    {items items' : List (Node × String)} (hitems : List.Forall₂ (JoinAlike alike) items items')
    (printed : String) :
    join source statements printed items = join source' statements printed items' := by
  cases hitems with
  | nil => rfl
  | @cons item item' rest rest' hitem hrest =>
    obtain ⟨first, text⟩ := item
    obtain ⟨first', text'⟩ := item'
    obtain ⟨hfirst, htext⟩ := hitem
    simp only at hfirst htext
    subst htext
    exact joinAfter_congr h statements hrest hfirst _

/-- Nodes that are alike and print as the same texts are joined alike. -/
theorem forall₂_withTexts {nodes others : List Node}
    (h : List.Forall₂ (fun node other => alike node other ∧
      nodeText source tree node = nodeText source' tree' other) nodes others) :
    List.Forall₂ (JoinAlike alike) (withTexts source tree nodes)
      (withTexts source' tree' others) := by
  unfold withTexts
  rw [List.forall₂_map_left_iff, List.forall₂_map_right_iff]
  exact h

/-- Branches with the same edges are put together in the same way when their children are alike and
have the same texts. -/
theorem rebuild_congr (h : SameGaps source source' alike) {node other : Node}
    (hedges : edgeGaps source node = edgeGaps source' other)
    (hchildren : List.Forall₂ (fun child child' => alike child child' ∧
      nodeText source tree child = nodeText source' tree' child') node.children other.children) :
    rebuild source node (fragments (.ofTree source tree) node.children) =
      rebuild source' other (fragments (.ofTree source' tree') other.children) := by
  rw [rebuild_eq, rebuild_eq, hedges, join_congr h false (forall₂_withTexts hchildren)]

end joining

/-! ### Nodes that stand for no node of a source -/

section unfound

variable {source : String} {tree : Tree} {node : Node}

/-- A node without identity stands for no node of the source. -/
theorem counterpart?_of_origin_none (h : node.origin = none) :
    counterpart? source tree node = none := by
  rw [counterpart?, h, Option.bind_none]

/-- A node with text that stands for no node of the source prints as its text. -/
theorem nodeText_of_text_of_unfound (h : counterpart? source tree node = none) {text : String}
    (htext : node.text = some text) : nodeText source tree node = text := by
  rw [nodeText, fragment_of_text htext, h]
  rfl

/-- A node without text that stands for no node of the source is rebuilt. -/
theorem nodeText_of_branch_of_unfound (h : counterpart? source tree node = none)
    (htext : node.text = none) :
    nodeText source tree node =
      rebuild source node (fragments (.ofTree source tree) node.children) := by
  rw [nodeText, fragment_of_branch htext, h]
  rfl

/-- A node that stands for no node of the source is not kept. -/
theorem fragment_of_unfound (h : counterpart? source tree node = none) :
    fragment (.ofTree source tree) node = .fresh (nodeText source tree node) := by
  cases htext : node.text with
  | some text =>
    rw [nodeText_of_text_of_unfound h htext, fragment_of_text htext, h]
    rfl
  | none =>
    rw [nodeText_of_branch_of_unfound h htext, fragment_of_branch htext, h]
    rfl

end unfound

/-- One node that is not kept is enough for not all of a list to be kept. -/
theorem all_isKept_eq_false {source : String} {tree : Tree} {node : Node} {nodes : List Node}
    (hnode : node ∈ nodes) (h : (fragment (.ofTree source tree) node).isKept = false) :
    (fragments (.ofTree source tree) nodes).all Fragment.isKept = false := by
  rw [fragments_eq_map, List.all_map, List.all_eq_false]
  exact ⟨node, hnode, by simp [h]⟩

/-! ### On its own -/

/-- To print without a source is to print against an empty one. -/
theorem Basis.none_eq_ofTree : Basis.none = .ofTree "" {} := by
  rfl

/-- The code of a node is its text in a file without any source. -/
theorem toCode_eq_nodeText (node : Node) : node.toCode = nodeText "" {} node := by
  rw [Node.toCode, Basis.none_eq_ofTree]
  rfl

/-- No node stands for one of the empty source. -/
theorem counterpart?_of_no_tree (node : Node) : counterpart? "" {} node = none := by
  rw [counterpart?, ← Basis.none_eq_ofTree]
  cases node.origin <;> rfl

/-- The empty source has nothing but itself. -/
theorem sliceString?_empty {part : String} {span : Span}
    (h : sliceString? "" span = some part) : part = "" ∧ span = ⟨0, 0⟩ := by
  obtain ⟨front, back, hsource, hstart, hstop⟩ := sliceString?_eq_some_iff.mp h
  have hsizes := congrArg String.utf8ByteSize hsource
  simp only [String.utf8ByteSize_append, String.utf8ByteSize_empty] at hsizes
  obtain ⟨start, stop⟩ := span
  simp only at hstart hstop
  refine ⟨String.utf8ByteSize_eq_zero_iff.mp (by omega), ?_⟩
  rw [Span.mk.injEq]
  omega

/-- In the empty source, a range that does not start at its first byte has no blanks. -/
theorem blankBetween?_empty {start stop : Nat} {between : String}
    (h : blankBetween? "" start stop = some between) : start = 0 ∧ between = "" := by
  obtain ⟨⟨hslice, -⟩, hbetween⟩ := blankBetween?_eq_some_iff.mp h
  obtain ⟨hpart, hspan⟩ := sliceString?_empty hslice.eq_some
  rw [hbetween] at hpart
  exact ⟨congrArg Span.start hspan, hpart⟩

/-- In the empty source nodes have no gaps at their edges. -/
theorem edgeGaps_empty (node : Node) : edgeGaps "" node = ("", "") := by
  have hnothing : ∀ start stop, (blankBetween? "" start stop).getD "" = "" := by
    intro start stop
    cases hbetween : blankBetween? "" start stop with
    | none => rfl
    | some between => exact (blankBetween?_empty hbetween).2
  unfold edgeGaps
  split
  · rw [hnothing, hnothing]
  · rfl

/-- In the empty source there is no gap to take over after a solid node. -/
theorem sourceGap?_empty {left : Node} (hleft : left.Solid) (right : Node) :
    sourceGap? "" left right = none := by
  cases hgap : sourceGap? "" left right with
  | none => rfl
  | some between =>
    obtain ⟨leftSpan, hspan, hrest⟩ := Option.bind_eq_some_iff.mp hgap
    obtain ⟨rightSpan, -, hbetween⟩ := Option.bind_eq_some_iff.mp hrest
    have hstop := (blankBetween?_empty hbetween).1
    have hsolid := hleft left left.mem_preorder_self leftSpan hspan
    omega

/-- Whether a node is like a statement depends on its kind alone. -/
theorem isStatementLike_of_kind {node other : Node} (h : node.kind = other.kind) :
    isStatementLike node = isStatementLike other := by
  unfold isStatementLike
  rw [h]

/-- There is no gap to take over next to a node without a range. -/
theorem sourceGap?_of_unplaced {source : String} {left right : Node}
    (h : left.span = none ∨ right.span = none) : sourceGap? source left right = none := by
  rw [sourceGap?]
  rcases h with h | h
  · rw [h]
    rfl
  · cases left.span <;> simp [h]

/-- An erased node keeps its kind. -/
theorem kind_erased (node : Node) : node.erased.kind = node.kind := by
  rw [Node.erased_eq]

/-- An erased node has no range. -/
theorem span_erased (node : Node) : node.erased.span = none := by
  rw [Node.erased_eq]

/-- Without a source, solid nodes have the same gaps when they are erased. -/
theorem sameGaps_erased :
    SameGaps "" "" fun node other => node.Solid ∧ other = node.erased := by
  rintro left _ right _ ⟨hleft, rfl⟩ ⟨-, rfl⟩
  refine ⟨isStatementLike_of_kind (kind_erased left).symm,
    isStatementLike_of_kind (kind_erased right).symm, ?_⟩
  rw [sourceGap?_empty hleft, sourceGap?_of_unplaced (Or.inl (span_erased left))]

/-- The code of a node with text is the text. -/
theorem toCode_of_text {node : Node} {text : String} (h : node.text = some text) :
    node.toCode = text := by
  rw [toCode_eq_nodeText, nodeText_of_text_of_unfound (counterpart?_of_no_tree node) h]

/-- The code of a branch is the codes of its children, joined. -/
theorem toCode_of_branch {node : Node} (h : node.text = none) :
    node.toCode = join "" false "" (node.children.map fun child => (child, child.toCode)) := by
  have htexts : withTexts "" {} node.children =
      node.children.map fun child => (child, child.toCode) :=
    List.map_congr_left fun child _ => by rw [toCode_eq_nodeText]
  rw [toCode_eq_nodeText, nodeText_of_branch_of_unfound (counterpart?_of_no_tree node) h,
    rebuild_eq, edgeGaps_empty, htexts, String.append_empty]

/-- The code of a node stays the same when all identities, ranges and roles are erased. -/
theorem toCode_erased {node : Node} (h : node.Solid) : node.erased.toCode = node.toCode := by
  induction node using Node.childInduction with
  | step node ih =>
    cases htext : node.text with
    | some text =>
      have htext' : node.erased.text = some text := by rw [Node.erased_eq, htext]
      rw [toCode_of_text htext, toCode_of_text htext']
    | none =>
      have htext' : node.erased.text = none := by rw [Node.erased_eq, htext]
      have hchildren : node.erased.children = node.children.map Node.erased := by
        rw [Node.erased_eq]
      rw [toCode_of_branch htext, toCode_of_branch htext', hchildren, List.map_map]
      symm
      apply join_congr sameGaps_erased
      rw [List.forall₂_map_left_iff, List.forall₂_map_right_iff, List.forall₂_same]
      intro child hchild
      exact ⟨⟨h.child hchild, rfl⟩, (ih child hchild (h.child hchild)).symm⟩

/-! ### In a file -/

/-- Nodes without ranges have the same gaps in all sources. -/
theorem sameGaps_unplaced (source source' : String) :
    SameGaps source source' fun node other => node.span = none ∧ other = node := by
  rintro left _ right _ ⟨hleft, rfl⟩ ⟨-, rfl⟩
  refine ⟨rfl, rfl, ?_⟩
  rw [sourceGap?_of_unplaced (Or.inl hleft), sourceGap?_of_unplaced (Or.inl hleft)]

/-- A node without a range has no gaps at its edges. -/
theorem edgeGaps_of_unplaced {source : String} {node : Node} (h : node.span = none) :
    edgeGaps source node = ("", "") := by
  unfold edgeGaps
  rw [h]

/-- The text of a fresh node depends neither on the source nor on the original tree. -/
theorem nodeText_congr_of_fresh {node : Node} (h : node.Fresh) (source source' : String)
    (tree tree' : Tree) : nodeText source tree node = nodeText source' tree' node := by
  induction node using Node.childInduction with
  | step node ih =>
    have hnode : counterpart? source tree node = none := counterpart?_of_origin_none h.origin_eq
    have hnode' : counterpart? source' tree' node = none := counterpart?_of_origin_none h.origin_eq
    cases htext : node.text with
    | some text =>
      rw [nodeText_of_text_of_unfound hnode htext, nodeText_of_text_of_unfound hnode' htext]
    | none =>
      rw [nodeText_of_branch_of_unfound hnode htext, nodeText_of_branch_of_unfound hnode' htext]
      refine rebuild_congr (sameGaps_unplaced source source') ?_ ?_
      · rw [edgeGaps_of_unplaced h.span_eq, edgeGaps_of_unplaced h.span_eq]
      · rw [List.forall₂_same]
        intro child hchild
        exact ⟨⟨(h.child hchild).span_eq, rfl⟩, ih child hchild (h.child hchild)⟩

section file

variable {source : String} {tree : Tree} {node : Node}

/-- A fresh node prints as its code, from every source and against every original tree. -/
theorem nodeText_of_fresh (h : node.Fresh) : nodeText source tree node = node.toCode := by
  rw [toCode_eq_nodeText]
  exact nodeText_congr_of_fresh h source "" tree {}

/-- A fresh node becomes a fragment with its code. -/
theorem fragment_of_fresh (h : node.Fresh) :
    fragment (.ofTree source tree) node = .fresh node.toCode := by
  rw [fragment_of_unfound (counterpart?_of_origin_none h.origin_eq), nodeText_of_fresh h]

/-- The fragment of a fresh node is not one of the source. -/
theorem isKept_of_fresh (source : String) (tree : Tree) (h : node.Fresh) :
    (fragment (.ofTree source tree) node).isKept = false := by
  rw [fragment_of_fresh h]
  rfl

/-! ### One leaf in the place of a node -/

/-- Two nodes print in the same way wherever they stand: they have the marks that neighbours and
parents look at in common, and they print as the same fragment. -/
structure PrintsAlike (source : String) (tree : Tree) (node other : Node) : Prop where
  kind : node.kind = other.kind
  origin : node.origin = other.origin
  span : node.span = other.span
  fragment : fragment (.ofTree source tree) node = fragment (.ofTree source tree) other

/-- A node prints like itself. -/
theorem PrintsAlike.refl (node : Node) : PrintsAlike source tree node node :=
  ⟨rfl, rfl, rfl, rfl⟩

section alike

variable {nodes others : List Node}

/-- Nodes that print alike become the same fragments. -/
theorem fragments_congr (h : List.Forall₂ (PrintsAlike source tree) nodes others) :
    fragments (.ofTree source tree) nodes = fragments (.ofTree source tree) others := by
  induction h with
  | nil => rfl
  | cons hfirst _ ih => rw [fragments, fragments, hfirst.fragment, ih]

/-- Nodes that print alike have the same identities as others, or not, together. -/
theorem sameOrigins_congr (h : List.Forall₂ (PrintsAlike source tree) nodes others)
    (bases : List Node) : sameOrigins bases nodes = sameOrigins bases others := by
  induction h generalizing bases with
  | nil => rfl
  | cons hfirst _ ih =>
    cases bases with
    | nil => rfl
    | cons base bases =>
      rw [Bool.eq_iff_iff, sameOrigins_cons, sameOrigins_cons, hfirst.origin, ih bases]

/-- Nodes that print alike have the same gaps. -/
theorem sameGaps_printsAlike : SameGaps source source (PrintsAlike source tree) := by
  intro left left' right right' hleft hright
  refine ⟨isStatementLike_of_kind hleft.kind, isStatementLike_of_kind hright.kind, ?_⟩
  rw [sourceGap?, sourceGap?, hleft.span, hright.span]

/-- Nodes that print alike print as the same texts. -/
theorem forall₂_nodeText_of_printsAlike
    (h : List.Forall₂ (PrintsAlike source tree) nodes others) :
    List.Forall₂ (fun node other => PrintsAlike source tree node other ∧
      nodeText source tree node = nodeText source tree other) nodes others :=
  h.imp fun _ _ halike => ⟨halike, congrArg (Fragment.toText source) halike.fragment⟩

/-- Nodes that print alike have the same ranges. -/
theorem map_span_of_printsAlike (h : List.Forall₂ (PrintsAlike source tree) nodes others) :
    nodes.map Node.span = others.map Node.span := by
  induction h with
  | nil => rfl
  | cons hfirst _ ih => rw [List.map_cons, List.map_cons, hfirst.span, ih]

end alike

/-- The edges of a branch depend on its range and on the ranges of its children. -/
theorem edgeGaps_congr {other : Node} (hspan : node.span = other.span)
    (hspans : node.children.map Node.span = other.children.map Node.span) :
    edgeGaps source node = edgeGaps source other := by
  have hhead : ∀ nodes : List Node,
      nodes.head?.bind Node.span = ((nodes.map Node.span).head?).join := by
    intro nodes
    rw [List.head?_map]
    cases nodes.head? <;> rfl
  have hlast : ∀ nodes : List Node,
      nodes.getLast?.bind Node.span = ((nodes.map Node.span).getLast?).join := by
    intro nodes
    rw [List.getLast?_map]
    cases nodes.getLast? <;> rfl
  unfold edgeGaps
  rw [hspan, hhead, hlast, hspans, ← hhead, ← hlast]

/-- Two nodes print in the same way when they differ in their children only, and the children print
in the same way. -/
theorem PrintsAlike.of_children {other : Node} (hkind : node.kind = other.kind)
    (htext : node.text = other.text) (horigin : node.origin = other.origin)
    (hspan : node.span = other.span)
    (h : List.Forall₂ (PrintsAlike source tree) node.children other.children) :
    PrintsAlike source tree node other := by
  refine ⟨hkind, horigin, hspan, ?_⟩
  have hcounterpart : counterpart? source tree node = counterpart? source tree other := by
    rw [counterpart?, counterpart?, horigin]
  cases hother : other.text with
  | some text =>
    rw [fragment_of_text (htext.trans hother), fragment_of_text hother, hcounterpart, hkind]
  | none =>
    have hkept : ∀ base parts, keptSpan? base node parts = keptSpan? base other parts := by
      intro base parts
      unfold keptSpan?
      rw [sameOrigins_congr h, hkind]
    have hrebuilt := rebuild_congr sameGaps_printsAlike
      (edgeGaps_congr hspan (map_span_of_printsAlike h))
      (forall₂_nodeText_of_printsAlike h)
    rw [fragment_of_branch (htext.trans hother), fragment_of_branch hother, branchFragment,
      branchFragment, hrebuilt, hcounterpart, fragments_congr h]
    simp only [hkept]

/-- Neighbours print alike if the one node in which they differ does. -/
theorem forall₂_printsAlike_among {front back : List Node} {other : Node}
    (h : PrintsAlike source tree node other) :
    List.Forall₂ (PrintsAlike source tree) (front ++ node :: back) (front ++ other :: back) :=
  List.rel_append (List.forall₂_same.mpr fun node _ => .refl node)
    (.cons h (List.forall₂_same.mpr fun node _ => .refl node))

/-- When a node gives way to one that prints in the same way, everything around it prints in the
same way, whether it has text, is kept or is rebuilt. -/
theorem forall₂_printsAlike_of_swap {new : Node} {path : List Nat} {nodes edited : List Node}
    (h : Swap node new path nodes edited) (halike : PrintsAlike source tree node new) :
    List.Forall₂ (PrintsAlike source tree) nodes edited := by
  induction h with
  | here front back => exact forall₂_printsAlike_among halike
  | inside front back _ ih => exact forall₂_printsAlike_among (.of_children rfl rfl rfl rfl ih)

/-- A tree prints as the source if its statements are all kept in place. Else they are joined
between two parts of the source. -/
theorem print_eq (source : String) (tree edited : Tree) :
    print tree source edited =
      if sameOrigins tree.statements edited.statements &&
          (fragments (.ofTree source tree) edited.statements).all Fragment.isKept then source
      else
        join source true (sliceString source ⟨0, (statementsSpan source tree).start⟩)
            (withTexts source tree edited.statements) ++
          sliceString source ⟨(statementsSpan source tree).stop, source.utf8ByteSize⟩ := by
  rw [withTexts_eq_zip]
  rfl

/-- Trees whose statements print alike print as the same text. -/
theorem print_congr {edited other : Tree}
    (h : List.Forall₂ (PrintsAlike source tree) edited.statements other.statements) :
    print tree source edited = print tree source other := by
  rw [print_eq, print_eq, sameOrigins_congr h, fragments_congr h,
    join_congr sameGaps_printsAlike true (forall₂_withTexts (forall₂_nodeText_of_printsAlike h))]

/-- A leaf of the kind of a fresh node, with the code of the node as its text. -/
def codeLeaf (node : Node) : Node :=
  .leaf node.kind node.toCode

/-- The leaf with the code of a node is fresh. -/
theorem fresh_codeLeaf (node : Node) : (codeLeaf node).Fresh := by
  intro below hbelow
  obtain rfl : below = codeLeaf node := by
    simpa [codeLeaf, Node.leaf, Node.preorder, Node.preorderList] using hbelow
  exact ⟨rfl, rfl⟩

/-- A fresh node prints like the leaf with its code. -/
theorem printsAlike_codeLeaf (h : node.Fresh) : PrintsAlike source tree node (codeLeaf node) := by
  refine ⟨rfl, h.origin_eq, h.span_eq, ?_⟩
  rw [fragment_of_fresh h, fragment_of_fresh (fresh_codeLeaf node)]
  rfl

/-- A file with a fresh node in it prints as if the code of the node had been put there as one
token. -/
theorem print_of_swap_code (h : node.Fresh) {path : List Nat} {edited other : Tree}
    (hswap : Swap node (codeLeaf node) path edited.statements other.statements) :
    print tree source other = print tree source edited :=
  (print_congr (forall₂_printsAlike_of_swap hswap (printsAlike_codeLeaf h))).symm

/-! ### The place of the code in the file -/

/-- The node is rebuilt, and the text is a part of what it prints as. -/
def Shows (source : String) (tree : Tree) (node : Node) (text : String) : Prop :=
  (fragment (.ofTree source tree) node).isKept = false ∧
    ∃ front back, nodeText source tree node = front ++ text ++ back

/-- A branch is not kept if one of its children is not, so it shows what the child shows. -/
theorem Shows.of_child {child : Node} {text : String} (h : Shows source tree child text)
    (hchild : child ∈ node.children) (htext : node.text = none) : Shows source tree node text := by
  obtain ⟨hfresh, front, back, hcode⟩ := h
  have hparts := all_isKept_eq_false hchild hfresh
  have hrebuilt : fragment (.ofTree source tree) node =
      .fresh (rebuild source node (fragments (.ofTree source tree) node.children)) := by
    have hnone : ∀ base,
        keptSpan? base node (fragments (.ofTree source tree) node.children) = none := by
      intro base
      simp [keptSpan?, hparts]
    rw [fragment_of_branch htext, branchFragment]
    cases counterpart? source tree node with
    | none => rfl
    | some base => rw [Option.bind_some, hnone]
  obtain ⟨lead, trail, hsplit⟩ := (woven_rebuild source tree node).exists_split
    (List.mem_map_of_mem hchild)
  refine ⟨by rw [hrebuilt]; rfl, lead ++ front, back ++ trail, ?_⟩
  rw [nodeText, hrebuilt, Fragment.toText, hsplit, hcode]
  simp only [String.append_assoc]

/-- Above a fresh node that no text hides, a node is rebuilt and shows the code. -/
theorem exists_shows_of_exposed (source : String) (tree : Tree) (h : node.Fresh)
    {nodes : List Node} (hnode : Exposed node nodes) :
    ∃ outer ∈ nodes, Shows source tree outer node.toCode := by
  induction hnode with
  | here hmem =>
    refine ⟨node, hmem, isKept_of_fresh source tree h, "", "", ?_⟩
    rw [nodeText_of_fresh h, String.empty_append, String.append_empty]
  | inside houter htext _ ih =>
    obtain ⟨child, hchild, hshows⟩ := ih
    exact ⟨_, houter, hshows.of_child hchild htext⟩

/-- The code of a fresh node that no text hides is a part of the printed text. -/
theorem exists_print_eq_of_exposed (h : node.Fresh) {edited : Tree}
    (hnode : Exposed node edited.statements) :
    ∃ front back, print tree source edited = front ++ node.toCode ++ back := by
  obtain ⟨outer, houter, hfresh, front, back, hcode⟩ :=
    exists_shows_of_exposed source tree h hnode
  rw [print_eq, all_isKept_eq_false houter hfresh, Bool.and_false, if_neg Bool.false_ne_true]
  obtain ⟨added, hadded, hwoven⟩ := exists_join_eq source true
    (withTexts source tree edited.statements)
    (sliceString source ⟨0, (statementsSpan source tree).start⟩)
  rw [map_snd_withTexts] at hwoven
  obtain ⟨lead, trail, rfl⟩ := hwoven.exists_split (List.mem_map_of_mem houter)
  rw [hadded, hcode]
  refine ⟨sliceString source ⟨0, (statementsSpan source tree).start⟩ ++ lead ++ front,
    back ++ trail ++
      sliceString source ⟨(statementsSpan source tree).stop, source.utf8ByteSize⟩, ?_⟩
  simp only [String.append_assoc]

end file

/-- The code of a node does not depend on where the node stands. On its own, a node without empty
ranges has the same code when all identities, ranges and roles are erased. In a file, a fresh node
prints as its code, from every source, against every original tree and in every working tree: where
no text hides the node, the code is a part of the printed file, and the file would be the same with
the code put there as one leaf. -/
theorem toCode_independent :
    (∀ node : Node, node.Solid → node.erased.toCode = node.toCode) ∧
      ∀ (source : String) (tree : Tree) (node : Node), node.Fresh →
        nodeText source tree node = node.toCode ∧
          (∀ edited : Tree, Exposed node edited.statements →
            ∃ front back, print tree source edited = front ++ node.toCode ++ back) ∧
          ∀ (edited other : Tree) (path : List Nat),
            Swap node (.leaf node.kind node.toCode) path edited.statements other.statements →
              print tree source other = print tree source edited := by
  refine ⟨fun node => toCode_erased, fun source tree node hfresh => ⟨?_, ?_, ?_⟩⟩
  · exact nodeText_of_fresh hfresh
  · exact fun edited => exists_print_eq_of_exposed hfresh
  · exact fun edited other path => print_of_swap_code hfresh

/-- A concatenation with ranges that touch each other. -/
def touchingSum : Node :=
  { kind := "binary_expression", field := some "right", origin := some ⟨3⟩, span := some ⟨0, 4⟩
    children :=
      [{ kind := "variable_name", text := some "$a", origin := some ⟨4⟩, span := some ⟨0, 2⟩ },
       { kind := ".", text := some ".", field := some "operator", span := some ⟨2, 3⟩ },
       { kind := "integer", text := some "1", origin := some ⟨6⟩, span := some ⟨3, 4⟩ }] }

/-- A new call. -/
def newCall : Node :=
  .branch "function_call_expression"
    [.leaf "name" "f", .branch "arguments" [.leaf "(" "(", .leaf "name" "X", .leaf ")" ")"]]

/-- A new statement around a node. -/
def newEcho (argument : Node) : Node :=
  .branch "echo_statement" [.leaf "echo" "echo", argument, .leaf ";" ";"]

/-- The small source with one more statement, in which `argument` stands. -/
def longerGreeting (argument : Node) : Tree :=
  greetingParsed.tree.push (newEcho argument)

/-- The call is printed as its code, and a leaf with that code in its place prints as the same
text. -/
theorem toCode_independent_newCall :
    touchingSum.Solid ∧ touchingSum.erased.toCode = "$a . 1" ∧ newCall.Fresh ∧
      nodeText greetingSource greetingParsed.tree newCall = "f(X)" ∧
      (∃ front back, print greetingParsed.tree greetingSource (longerGreeting newCall) =
        front ++ "f(X)" ++ back) ∧
      print greetingParsed.tree greetingSource
          (longerGreeting (.leaf "function_call_expression" "f(X)")) =
        print greetingParsed.tree greetingSource (longerGreeting newCall) := by
  have hsolid : touchingSum.Solid := by decide
  have hfresh : newCall.Fresh := by decide
  have hcode : newCall.toCode = "f(X)" := by decide
  obtain ⟨herased, hfile⟩ := toCode_independent
  obtain ⟨htext, hpart, hleaf⟩ := hfile greetingSource greetingParsed.tree newCall hfresh
  rw [hcode] at htext
  have hexposed : Exposed newCall (longerGreeting newCall).statements :=
    .inside (List.mem_append_right _ List.mem_cons_self) rfl
      (.here (List.mem_cons_of_mem _ List.mem_cons_self))
  have hchildren : Swap newCall (.leaf newCall.kind newCall.toCode) [1] (newEcho newCall).children
      (newEcho (.leaf newCall.kind newCall.toCode)).children :=
    .here [.leaf "echo" "echo"] [.leaf ";" ";"]
  have hswap : Swap newCall (.leaf newCall.kind newCall.toCode) [2, 1]
      (longerGreeting newCall).statements
      (longerGreeting (.leaf newCall.kind newCall.toCode)).statements :=
    .inside greetingParsed.tree.statements [] hchildren
  refine ⟨hsolid, (herased touchingSum hsolid).trans (by decide), hfresh, htext, ?_, ?_⟩
  · rw [← hcode]
    exact hpart _ hexposed
  · rw [← hcode]
    exact hleaf _ _ _ hswap

end Layout

end Retouch
