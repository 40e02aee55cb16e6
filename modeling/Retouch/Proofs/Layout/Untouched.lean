import Retouch.Proofs.Layout.Gaps

/-!
# Untouched code keeps its bytes

A node of a working tree is **untouched** when it has the identity of an original node, and it and
everything below it have the kinds, texts, identities and numbers of children of that original. The
definition looks at the two trees only (`Node.sameAs`, `Tree.original?`); neither the source nor the
printer has a part in it.

* **Untouched nodes are kept** (`fragment_of_sameAs`), at any depth and under any parent.
* **So they print as their slices** (`woven_untouched`). Where a parent is rebuilt, its children are
  joined; where a parent is kept although something below a node with text was touched, the slices
  of the untouched nodes are inside of its own slice, because the ranges of children are lined up in
  the range of their parent.

`print_eq_weave` says it for whole trees: the printed text is the slices of the originals of the
outermost untouched nodes, in document order, with some gap before, between and after them.
-/

namespace Retouch

open Text

namespace Node

mutual

/-- Whether a node and all nodes below it have the kinds, texts, identities and numbers of children
of `base`. -/
def sameAs : (base node : Node) → Bool
  | base, { kind, text, children, origin, .. } =>
    base.kind = kind && base.text = text && base.origin = origin && sameAsAll base.children children

/-- The same for two lists of nodes, one by one. -/
def sameAsAll : (bases nodes : List Node) → Bool
  | [], [] => true
  | base :: bases, node :: nodes => sameAs base node && sameAsAll bases nodes
  | _, _ => false

end

/-- A node is the same as another one if its kind, text and identity are, and its children. -/
theorem sameAs_iff {base node : Node} :
    base.sameAs node = true ↔ base.kind = node.kind ∧ base.text = node.text ∧
      base.origin = node.origin ∧ sameAsAll base.children node.children = true := by
  obtain ⟨_, _, _, _, _, _⟩ := node
  simp only [sameAs, Bool.and_eq_true, decide_eq_true_eq, and_assoc]

/-- Two lists are the same if their first nodes and the rests are. -/
theorem sameAsAll_cons {base node : Node} {bases nodes : List Node} :
    sameAsAll (base :: bases) (node :: nodes) = true ↔
      base.sameAs node = true ∧ sameAsAll bases nodes = true := by
  rw [sameAsAll, Bool.and_eq_true]

/-- Each node of a list is the same as one of the other list. -/
theorem exists_sameAs_of_mem {bases nodes : List Node} (h : sameAsAll bases nodes = true)
    {node : Node} (hnode : node ∈ nodes) : ∃ base ∈ bases, base.sameAs node = true := by
  induction nodes generalizing bases with
  | nil => simp at hnode
  | cons first rest ih =>
    cases bases with
    | nil => simp [sameAsAll] at h
    | cons base bases =>
      obtain ⟨hfirst, hrest⟩ := sameAsAll_cons.mp h
      rcases List.mem_cons.mp hnode with rfl | hnode
      · exact ⟨base, List.mem_cons_self, hfirst⟩
      · obtain ⟨other, hother, hsame⟩ := ih hrest hnode
        exact ⟨other, List.mem_cons_of_mem _ hother, hsame⟩

end Node

/-- The original of an untouched node. -/
def Tree.original? (tree : Tree) (node : Node) : Option Node :=
  tree.nodes.find? fun base => base.origin.isSome && base.sameAs node

namespace Node

mutual

/-- The originals of the outermost untouched nodes at or below a node, in document order. A node
with text hides what is below it. -/
def untouched (tree : Tree) : Node → List Node
  | node@{ children, .. } =>
    match tree.original? node with
    | some base => [base]
    | none => if node.isLeaf then [] else untouchedList tree children

/-- The originals of the outermost untouched nodes of a list of subtrees, in document order. -/
def untouchedList (tree : Tree) : List Node → List Node
  | [] => []
  | node :: rest => untouched tree node ++ untouchedList tree rest

end

/-- The untouched nodes of subtrees come one subtree after the other. -/
theorem untouchedList_eq_flatMap (tree : Tree) (nodes : List Node) :
    untouchedList tree nodes = nodes.flatMap (untouched tree) := by
  induction nodes with
  | nil => rfl
  | cons node rest ih => rw [untouchedList, ih, List.flatMap_cons]

/-- An untouched node counts as a whole, and in any other node its children are looked at. -/
theorem untouched_eq (tree : Tree) (node : Node) :
    node.untouched tree =
      match tree.original? node with
      | some base => [base]
      | none => if node.isLeaf then [] else node.children.flatMap (untouched tree) := by
  obtain ⟨_, _, _, _, _, _⟩ := node
  rw [untouched, untouchedList_eq_flatMap]

end Node

/-- The originals of the outermost untouched nodes of a working tree, in document order. -/
def Tree.untouched (tree edited : Tree) : List Node :=
  Node.untouchedList tree edited.statements

namespace Layout

variable {source : String} {root : Concrete} {parsed : Parsed} {tree : Tree}

/-! ### Untouched nodes are kept -/

/-- Nodes that are the same as those of a numbered tree have the same identities. -/
theorem sameOrigins_of_sameAsAll (h : Numbered tree) {bases nodes : List Node}
    (hbases : ∀ base ∈ bases, base ∈ tree.nodes) (hsame : Node.sameAsAll bases nodes = true) :
    sameOrigins bases nodes = true := by
  induction bases generalizing nodes with
  | nil =>
    cases nodes with
    | nil => rfl
    | cons => simp [Node.sameAsAll] at hsame
  | cons base bases ih =>
    cases nodes with
    | nil => simp [Node.sameAsAll] at hsame
    | cons node nodes =>
      obtain ⟨hfirst, hrest⟩ := Node.sameAsAll_cons.mp hsame
      obtain ⟨-, -, horigin, -⟩ := Node.sameAs_iff.mp hfirst
      have hid := h.identified base (hbases base List.mem_cons_self)
      rw [sameOrigins_cons, ← horigin]
      exact ⟨hid, rfl, ih (fun other hother => hbases other (List.mem_cons_of_mem _ hother)) hrest⟩

/-- A node that is the same as a node of the original tree is kept for it. No range needs to be a
part of the source for that. -/
theorem fragment_of_sameAs (h : Numbered tree)
    (hspans : ∀ base ∈ tree.nodes, base.span = some base.place) {base node : Node}
    (hbase : base ∈ tree.nodes) (hsame : base.sameAs node = true) :
    fragment (.ofTree source tree) node = .kept base.place := by
  induction node using Node.childInduction generalizing base with
  | step node ih =>
    obtain ⟨hkind, htexts, horigin, hchildren⟩ := Node.sameAs_iff.mp hsame
    have hcounterpart : counterpart? source tree node = some base :=
      (counterpart_eq_some_iff h).mpr ⟨hbase, horigin.symm⟩
    cases htext : node.text with
    | some text =>
      rw [fragment_of_text htext, hcounterpart, leafFragment, hspans base hbase]
      exact if_pos ⟨hkind, htexts.trans htext⟩
    | none =>
      have hbelow : ∀ child ∈ base.children, child ∈ tree.nodes :=
        fun child hchild => tree.mem_nodes_of_child hbase hchild
      -- by induction the children are kept, each for the child that it is the same as
      have hkept : (fragments (.ofTree source tree) node.children).all Fragment.isKept = true := by
        rw [fragments_eq_map, List.all_map, List.all_eq_true]
        intro child hchild
        obtain ⟨other, hother, hsameChild⟩ := Node.exists_sameAs_of_mem hchildren hchild
        rw [Function.comp_apply, ih child hchild (hbelow other hother) hsameChild]
        rfl
      have hnoleaf : base.isLeaf = false := by
        rw [Node.isLeaf, htexts, htext, Option.isSome_none]
      have hspan : keptSpan? base node (fragments (.ofTree source tree) node.children) =
          some base.place := by
        rw [keptSpan?, hspans base hbase, sameOrigins_of_sameAsAll h hbelow hchildren, hkept,
          hnoleaf]
        simp [hkind]
      rw [fragment_of_branch htext, branchFragment, hcounterpart, Option.bind_some, hspan]

/-! ### Untouched nodes print as their slices -/

/-- The original of an untouched node is a node of the tree that is the same as it. -/
theorem original?_eq_some {node base : Node} (h : tree.original? node = some base) :
    base ∈ tree.nodes ∧ base.sameAs node = true := by
  have hsame := List.find?_some h
  rw [Bool.and_eq_true] at hsame
  exact ⟨List.mem_of_find?_eq_some h, hsame.2⟩

/-- The originals of untouched nodes are nodes of the tree. -/
theorem mem_nodes_of_untouched {node base : Node} (h : base ∈ node.untouched tree) :
    base ∈ tree.nodes := by
  induction node using Node.childInduction with
  | step node ih =>
    rw [Node.untouched_eq] at h
    split at h
    case h_1 original horiginal =>
      rw [List.mem_singleton.mp h]
      exact (original?_eq_some horiginal).1
    case h_2 =>
      split at h
      · cases h
      · obtain ⟨child, hchild, hbelow⟩ := List.mem_flatMap.mp h
        exact ih child hchild hbelow

/-- A node prints as the slices of its untouched parts, with something around them. -/
theorem woven_untouched (h : Original source tree) (node : Node) :
    Woven Anything ((node.untouched tree).map fun base => sliceString source base.place)
      (nodeText source tree node) := by
  induction node using Node.childInduction with
  | step node ih =>
    rw [Node.untouched_eq]
    split
    case h_1 base horiginal =>
      obtain ⟨hmem, hsame⟩ := original?_eq_some horiginal
      rw [nodeText, fragment_of_sameAs h.toNumbered
        (fun other hother => (h.settled other hother).span_eq) hmem hsame]
      exact .ofOne trivial _
    case h_2 =>
      cases htext : node.text with
      | some text =>
        rw [Node.isLeaf, htext, Option.isSome_some, if_pos rfl]
        exact .ofNone _
      | none =>
        rw [Node.isLeaf, htext, Option.isSome_none, if_neg Bool.false_ne_true, List.map_flatMap]
        exact (woven_nodeText h htext).flatMap ih

/-- A working tree prints as the source slices of the originals of its outermost untouched nodes, in
document order, with a gap before, between and after them. -/
theorem print_eq_weave (hread : root.read source = .ok parsed) (hfits : root.WellFormed source)
    (edited : Tree) :
    ∃ gap pieces, parsed.print edited = weave gap pieces ∧
      (parsed.tree.untouched edited).map (fun base => base.span.bind (sliceString? source)) =
        pieces.map fun piece => some piece.1 := by
  have horiginal := Concrete.original_of_read hread hfits
  obtain ⟨body, hprint, hwoven⟩ := exists_print_eq horiginal edited
  have hbody := hwoven.flatMap fun node _ => woven_untouched horiginal node
  have hall := hbody.between (parsed.tree.before source) (parsed.tree.after source)
  rw [← hprint, ← Parsed.print_eq hread] at hall
  obtain ⟨gap, pieces, hweave, hpieces⟩ := hall.exists_weave
  refine ⟨gap, pieces, hweave, ?_⟩
  rw [← List.map_flatMap, ← Node.untouchedList_eq_flatMap] at hpieces
  have hslices : ∀ base ∈ parsed.tree.untouched edited,
      base.span.bind (sliceString? source) = some (sliceString source base.place) := by
    intro base hbase
    rw [Tree.untouched, Node.untouchedList_eq_flatMap] at hbase
    obtain ⟨node, -, hbelow⟩ := List.mem_flatMap.mp hbase
    have hsettled := horiginal.settled base (mem_nodes_of_untouched hbelow)
    rw [hsettled.span_eq, Option.bind_some, hsettled.hasSlice.eq_some]
  calc (parsed.tree.untouched edited).map (fun base => base.span.bind (sliceString? source))
      = (parsed.tree.untouched edited).map fun base => some (sliceString source base.place) :=
        List.map_congr_left hslices
    _ = (pieces.map Prod.fst).map some := by rw [hpieces, List.map_map]; rfl
    _ = pieces.map fun piece => some piece.1 := List.map_map

/-- The small source with a new text in the string, and the first statement once more at the end. -/
def louderGreeting : Tree :=
  ⟨[{ kind := "php_tag", text := some "<?php", origin := some ⟨0⟩, span := some ⟨0, 5⟩ },
    { kind := "echo_statement", origin := some ⟨1⟩, span := some ⟨6, 19⟩
      children :=
        [{ kind := "echo", text := some "echo", origin := some ⟨2⟩, span := some ⟨6, 10⟩ },
         { kind := "string", origin := some ⟨3⟩, span := some ⟨12, 17⟩
           children :=
             [{ kind := "'", text := some "'", origin := some ⟨4⟩, span := some ⟨12, 13⟩ },
              { kind := "string_content", text := some "HÉ", origin := some ⟨5⟩
                span := some ⟨13, 16⟩ },
              { kind := "'", text := some "'", origin := some ⟨6⟩, span := some ⟨16, 17⟩ }] },
         { kind := ";", text := some ";", origin := some ⟨7⟩, span := some ⟨18, 19⟩ }] },
    { kind := "php_tag", text := some "<?php", origin := some ⟨0⟩, span := some ⟨0, 5⟩ }]⟩

/-- All but the new text comes from the source, piece by piece, and the repeated statement comes
twice. -/
theorem print_eq_weave_louderGreeting :
    greeting.read greetingSource = .ok greetingParsed ∧ greeting.WellFormed greetingSource ∧
      ∃ gap pieces, greetingParsed.print louderGreeting = weave gap pieces ∧
        pieces.map (fun piece => some piece.1) =
          [some "<?php", some "echo", some "'", some "'", some ";", some "<?php"] := by
  have hread : greeting.read greetingSource = .ok greetingParsed := rfl
  have hfits : greeting.WellFormed greetingSource := by decide
  obtain ⟨gap, pieces, hprint, hpieces⟩ := print_eq_weave hread hfits louderGreeting
  refine ⟨hread, hfits, gap, pieces, hprint, ?_⟩
  rw [← hpieces]
  decide

end Layout

end Retouch
