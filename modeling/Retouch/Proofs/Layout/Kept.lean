import Retouch.Layout.Print
import Retouch.Proofs.Tree.Reading

/-!
# Which nodes are kept

How a node of a working tree prints is decided by the node of the original tree that it stands for.
This file says once what the decision can be; later files go by these cases and do not look into the
printer again.

* **Counterparts** (`counterpart_eq_some_iff`): in an original tree, the node found for a working
  node is the one with its identity, and there is at most one.
* **A node with text prints as that text** (`nodeText_of_text`), kept or not: it is kept only
  for a leaf with the same text, and the slice of that leaf is its text.
* **A branch** is kept for a branch of the original whose children its own children are kept for, or
  it is rebuilt (`fragment_branch_cases`). A working node may carry the identity of a node that it
  has nothing to do with, as after a move from another file; then the children do not match, and it
  is rebuilt.
-/

namespace Retouch.Layout

open Text

/-! ### Counterparts -/

/-- Putting nodes into a table one after the other, by identity, leaves the last one with an
identity in its place. -/
theorem getElem?_foldl_insert {put : Std.TreeMap Nat Node → Node → Std.TreeMap Nat Node}
    (hnone : ∀ known node, node.origin = none → put known node = known)
    (hsome : ∀ known node id, node.origin = some id → put known node = known.insert id.index node)
    (id : NodeId) (nodes : List Node) (known : Std.TreeMap Nat Node) :
    (nodes.foldl put known)[id.index]? =
      (nodes.reverse.find? fun node => node.origin = some id).or known[id.index]? := by
  induction nodes generalizing known with
  | nil => rfl
  | cons node rest ih =>
    rw [List.foldl_cons, ih, List.reverse_cons, List.find?_append, Option.or_assoc]
    congr 1
    cases horigin : node.origin with
    | none =>
      rw [hnone known node horigin]
      simp [horigin]
    | some other =>
      rw [hsome known node other horigin]
      by_cases hid : other = id
      · simp [horigin, hid]
      · have hindex : ¬ other.index = id.index := fun heq => hid (congrArg NodeId.mk heq)
        simp [horigin, hid, hindex, Std.TreeMap.getElem?_insert]

/-- The index finds the last node with an identity. -/
theorem index_getElem? (tree : Tree) (id : NodeId) :
    (index tree)[id.index]? = tree.nodes.reverse.find? fun node => node.origin = some id := by
  unfold index
  rw [getElem?_foldl_insert, Std.TreeMap.getElem?_emptyc, Option.or_none]
  · intro known node hnone
    rw [hnone]
  · intro known node id hsome
    rw [hsome]

/-- The node of the original tree that a working node stands for. -/
def counterpart? (source : String) (tree : Tree) (node : Node) : Option Node :=
  node.origin.bind (Basis.ofTree source tree).find?

section counterpart

variable {source : String} {tree : Tree} {node base : Node}

/-- Working nodes stand for the nodes with their identity. -/
theorem counterpart_eq_some_iff (h : Numbered tree) :
    counterpart? source tree node = some base ↔ base ∈ tree.nodes ∧ node.origin = base.origin := by
  constructor
  · intro hbase
    obtain ⟨id, horigin, hfind⟩ := Option.bind_eq_some_iff.mp hbase
    -- of nodes with the same identity, the index has the last one
    have hlast : tree.nodes.reverse.find? (fun node => node.origin = some id) = some base := by
      rw [← index_getElem?]
      exact hfind
    have hmem := List.mem_of_find?_eq_some hlast
    have hid := List.find?_some hlast
    rw [decide_eq_true_eq] at hid
    exact ⟨List.mem_reverse.mp hmem, by rw [horigin, hid]⟩
  · rintro ⟨hmem, horigin⟩
    obtain ⟨id, hid⟩ := Option.isSome_iff_exists.mp (h.identified base hmem)
    refine Option.bind_eq_some_iff.mpr ⟨id, horigin.trans hid, ?_⟩
    show (index tree)[id.index]? = some base
    rw [index_getElem?]
    cases hfind : tree.nodes.reverse.find? fun node => node.origin = some id with
    | none =>
      rw [List.find?_eq_none] at hfind
      have hno := hfind base (List.mem_reverse.mpr hmem)
      simp [hid] at hno
    | some other =>
      have hother := List.mem_reverse.mp (List.mem_of_find?_eq_some hfind)
      have hsame := List.find?_some hfind
      rw [decide_eq_true_eq] at hsame
      rw [h.eq_of_origin hother hmem (hsame.trans hid.symm)]

end counterpart

/-! ### Fragments -/

/-- Nodes become fragments one by one. -/
theorem fragments_eq_map (basis : Basis) (nodes : List Node) :
    fragments basis nodes = nodes.map (fragment basis) := by
  induction nodes with
  | nil => rfl
  | cons node rest ih => rw [fragments, ih, List.map_cons]

/-- The fragment of a node with text depends on its counterpart, its kind and its text. -/
theorem fragment_of_text {source : String} {tree : Tree} {node : Node} {text : String}
    (htext : node.text = some text) :
    fragment (.ofTree source tree) node =
      leafFragment (counterpart? source tree node) node.kind text := by
  obtain ⟨kind, field, _, children, origin, span⟩ := node
  subst htext
  rfl

/-- The fragment of a node without text depends on its counterpart and the fragments of its
children. -/
theorem fragment_of_branch {source : String} {tree : Tree} {node : Node}
    (htext : node.text = none) :
    fragment (.ofTree source tree) node =
      branchFragment source (counterpart? source tree node) node
        (fragments (.ofTree source tree) node.children) := by
  obtain ⟨kind, field, _, children, origin, span⟩ := node
  subst htext
  rfl

/-- The text that a working node prints as. -/
def nodeText (source : String) (tree : Tree) (node : Node) : String :=
  (fragment (.ofTree source tree) node).toText source

/-- The texts of the fragments are what the nodes print as. -/
theorem map_toText_fragments (source : String) (tree : Tree) (nodes : List Node) :
    (fragments (.ofTree source tree) nodes).map (Fragment.toText source) =
      nodes.map (nodeText source tree) := by
  rw [fragments_eq_map, List.map_map]
  rfl

/-- The slice of a kept node is that of its counterpart. -/
theorem counterpart_of_kept {source : String} {tree : Tree} {node : Node} {span : Span}
    (h : fragment (.ofTree source tree) node = .kept span) :
    ∃ base, counterpart? source tree node = some base ∧ base.span = some span := by
  cases htext : node.text with
  | some text =>
    rw [fragment_of_text htext] at h
    unfold leafFragment at h
    split at h
    · rename_i base hbase
      refine ⟨base, hbase, ?_⟩
      split at h
      · split at h
        · rename_i hspan
          cases h
          exact hspan
        · cases h
      · cases h
    · cases h
  | none =>
    rw [fragment_of_branch htext, branchFragment] at h
    split at h
    · rename_i hkept
      obtain ⟨base, hbase, hspan⟩ := Option.bind_eq_some_iff.mp hkept
      refine ⟨base, hbase, ?_⟩
      unfold keptSpan? at hspan
      split at hspan
      · cases h
        exact hspan
      · cases hspan
    · cases h

section original

variable {source : String} {tree : Tree}

/-- A node with text prints as that text. -/
theorem nodeText_of_text (h : Original source tree) {node : Node} {text : String}
    (htext : node.text = some text) : nodeText source tree node = text := by
  rw [nodeText, fragment_of_text htext]
  cases hbase : counterpart? source tree node with
  | none => rfl
  | some base =>
    rw [leafFragment]
    split
    case isFalse => rfl
    case isTrue hsame =>
      -- a counterpart with text is a leaf of the source, whose slice is its text
      have hsettled := h.settled base ((counterpart_eq_some_iff h.toNumbered).mp hbase).1
      have hleaf : base.children = [] := by
        by_contra hbranch
        rw [hsettled.branch hbranch] at hsame
        cases hsame.2
      have hslice := hsettled.leaf hleaf
      rw [hsame.2, Option.some.injEq] at hslice
      rw [hsettled.span_eq]
      exact hslice.symm

/-- Two lists have the same identities if their first nodes and the rests have. -/
theorem sameOrigins_cons (base node : Node) (bases nodes : List Node) :
    sameOrigins (base :: bases) (node :: nodes) = true ↔
      node.origin.isSome ∧ node.origin = base.origin ∧ sameOrigins bases nodes = true := by
  simp only [sameOrigins, List.length_cons, List.zip_cons_cons, List.all_cons, Bool.and_eq_true,
    decide_eq_true_eq, Nat.add_right_cancel_iff]
  tauto

/-- Kept nodes that stand for given nodes of the source, one for one, print as their slices. -/
theorem fragments_of_sameOrigins (h : Original source tree) {bases nodes : List Node}
    (hbases : ∀ base ∈ bases, base ∈ tree.nodes) (hsame : sameOrigins bases nodes = true)
    (hkept : (fragments (.ofTree source tree) nodes).all Fragment.isKept = true) :
    fragments (.ofTree source tree) nodes = bases.map fun base => .kept base.place := by
  induction bases generalizing nodes with
  | nil =>
    cases nodes with
    | nil => rfl
    | cons => simp [sameOrigins] at hsame
  | cons base bases ih =>
    cases nodes with
    | nil => simp [sameOrigins] at hsame
    | cons node nodes =>
      obtain ⟨-, horigin, hrest⟩ := (sameOrigins_cons ..).mp hsame
      rw [fragments, List.all_cons, Bool.and_eq_true] at hkept
      have hmem := hbases base List.mem_cons_self
      have hcounterpart : counterpart? source tree node = some base :=
        (counterpart_eq_some_iff h.toNumbered).mpr ⟨hmem, horigin⟩
      have hfirst : fragment (.ofTree source tree) node = .kept base.place := by
        cases hfragment : fragment (.ofTree source tree) node with
        | fresh text => simp [hfragment, Fragment.isKept] at hkept
        | kept span =>
          obtain ⟨other, hother, hspan⟩ := counterpart_of_kept hfragment
          rw [hcounterpart, Option.some.injEq] at hother
          rw [← hother, (h.settled base hmem).span_eq, Option.some.injEq] at hspan
          rw [hspan]
      have hothers := ih (fun other hother => hbases other (List.mem_cons_of_mem _ hother)) hrest
        hkept.2
      rw [fragments, hfirst, hothers, List.map_cons]

/-- A branch is kept for a branch of the source whose children its own children are kept for, or
it is rebuilt. -/
theorem fragment_branch_cases (h : Original source tree) {node : Node} (htext : node.text = none) :
    (∃ base ∈ tree.nodes, base.origin = node.origin ∧ base.children ≠ [] ∧
        fragment (.ofTree source tree) node = .kept base.place ∧
        fragments (.ofTree source tree) node.children =
          base.children.map fun child => .kept child.place) ∨
      fragment (.ofTree source tree) node =
        .fresh (rebuild source node (fragments (.ofTree source tree) node.children)) := by
  rw [fragment_of_branch htext, branchFragment]
  split
  case h_2 => exact Or.inr rfl
  case h_1 hkept =>
    refine Or.inl ?_
    obtain ⟨base, hbase, hspan⟩ := Option.bind_eq_some_iff.mp hkept
    obtain ⟨hmem, horigin⟩ := (counterpart_eq_some_iff h.toNumbered).mp hbase
    have hsettled := h.settled base hmem
    unfold keptSpan? at hspan
    split at hspan
    case isFalse => cases hspan
    case isTrue hconditions =>
      simp only [Bool.and_eq_true, Bool.not_eq_true', decide_eq_true_eq] at hconditions
      obtain ⟨⟨⟨-, hnoleaf⟩, hsame⟩, hall⟩ := hconditions
      have hbranch : base.children ≠ [] := by
        intro hnil
        rw [Node.isLeaf, hsettled.leaf hnil] at hnoleaf
        exact absurd hnoleaf (by simp)
      rw [hsettled.span_eq, Option.some.injEq] at hspan
      refine ⟨base, hmem, horigin.symm, hbranch, by rw [hspan], ?_⟩
      exact fragments_of_sameOrigins h
        (fun child hchild => tree.mem_nodes_of_child hmem hchild) hsame hall

end original

end Retouch.Layout
