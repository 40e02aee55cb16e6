import Retouch.Proofs.Layout.Kept
import Retouch.Run.Runner

/-!
# A text that nothing changes comes back as it was

Printing a copy of the original tree gives back the source, byte for byte. Nothing is asked of the
ranges in the concrete tree: they may overlap, be reversed, or lie outside of the text. Two facts
suffice, and both hold of every tree that is read.

* **Identities are distinct** (`Concrete.numbered_of_read`), so the node that a copy stands for is
  the very node that was copied.
* **Every node has a range** (`Concrete.isSome_span_of_read`), whatever that range is worth.

From these, every node of the copy is kept (`isKept_fragment_self`): a leaf because it is compared
with itself, a branch because its children are. A tree that is kept as a whole prints as the source,
and no range is ever looked up (`print_self`).
-/

namespace Retouch

/-! ### Ranges of nodes that are read -/

namespace Concrete

mutual

/-- Every node at or below a working node that stands for a concrete one has a range. -/
theorem isSome_span_toNode (source : String) :
    (node : Concrete) → ∀ next, ∀ below ∈ (node.toNode source next).1.preorder, below.span.isSome
  | ⟨kind, field, span, _, _, _, []⟩, next, below, hbelow => by
      rw [toNode, Node.preorder_eq, List.mem_cons] at hbelow
      rcases hbelow with rfl | hbelow
      · rfl
      · simp [Node.preorderList] at hbelow
  | ⟨kind, field, span, _, _, _, first :: rest⟩, next, below, hbelow => by
      rw [toNode, Node.preorder_eq, List.mem_cons] at hbelow
      rcases hbelow with rfl | hbelow
      · rfl
      · exact isSome_span_toNodes source (first :: rest) (next + 1) below hbelow

/-- The same for a list of nodes. -/
theorem isSome_span_toNodes (source : String) :
    (nodes : List Concrete) → ∀ next,
      ∀ below ∈ Node.preorderList (toNodes source next nodes).1, below.span.isSome
  | [], next, below, hbelow => by simp [toNodes, Node.preorderList] at hbelow
  | node :: rest, next, below, hbelow => by
      rw [toNodes_cons, Node.preorderList, List.mem_append] at hbelow
      rcases hbelow with hbelow | hbelow
      · exact isSome_span_toNode source node next below hbelow
      · exact isSome_span_toNodes source rest _ below hbelow

end

/-- Every node that is read has a range. -/
theorem isSome_span_of_read {source : String} {root : Concrete} {parsed : Parsed}
    (h : root.read source = .ok parsed) : ∀ node ∈ parsed.tree.nodes, node.span.isSome := by
  rw [read_eq_ok h]
  exact isSome_span_toNodes source root.children 0

/-- A concrete tree without faults can be read. -/
theorem exists_read_of_not_hasError (source : String) {root : Concrete}
    (h : root.hasError = false) :
    ∃ parsed, root.read source = .ok parsed ∧ parsed.tokens.source = source := by
  refine ⟨⟨⟨(toNodes source 0 root.children).1⟩, ⟨source, tokensList root.children⟩⟩, ?_, rfl⟩
  rw [read, h]
  rfl

end Concrete

/-! ### Copies -/

namespace Layout

variable {source : String} {tree : Tree}

/-- Nodes with origins have the same origins as they have themselves. -/
theorem sameOrigins_self {nodes : List Node} (h : ∀ node ∈ nodes, node.origin.isSome) :
    sameOrigins nodes nodes = true := by
  induction nodes with
  | nil => rfl
  | cons node rest ih =>
    have hfirst := h node List.mem_cons_self
    have hrest := ih fun other hother => h other (List.mem_cons_of_mem _ hother)
    exact (sameOrigins_cons ..).mpr ⟨hfirst, rfl, hrest⟩

/-- A node of the original tree is kept. -/
theorem isKept_fragment_self (hnumbered : Numbered tree)
    (hspans : ∀ node ∈ tree.nodes, node.span.isSome) {node : Node} (hnode : node ∈ tree.nodes) :
    (fragment (.ofTree source tree) node).isKept = true := by
  induction node using Node.childInduction with
  | step node ih =>
    have hself : counterpart? source tree node = some node :=
      (counterpart_eq_some_iff hnumbered).mpr ⟨hnode, rfl⟩
    obtain ⟨span, hspan⟩ := Option.isSome_iff_exists.mp (hspans node hnode)
    cases htext : node.text with
    | some text =>
      rw [fragment_of_text htext, hself, leafFragment, if_pos ⟨rfl, htext⟩, hspan]
      rfl
    | none =>
      have hbelow : ∀ child ∈ node.children, child ∈ tree.nodes :=
        fun child hchild => tree.mem_nodes_of_child hnode hchild
      have hsame : sameOrigins node.children node.children = true :=
        sameOrigins_self fun child hchild => hnumbered.identified child (hbelow child hchild)
      have hall : (fragments (.ofTree source tree) node.children).all Fragment.isKept = true := by
        rw [fragments_eq_map, List.all_map, List.all_eq_true]
        exact fun child hchild => ih child hchild (hbelow child hchild)
      have hkept : keptSpan? node node (fragments (.ofTree source tree) node.children) =
          some span := by
        simp [keptSpan?, Node.isLeaf, htext, hsame, hall, hspan]
      rw [fragment_of_branch htext, hself, branchFragment, Option.bind_some, hkept]
      rfl

/-- The original tree prints as the source. -/
theorem print_self (hnumbered : Numbered tree) (hspans : ∀ node ∈ tree.nodes, node.span.isSome) :
    print tree source tree = source := by
  have hsame : sameOrigins tree.statements tree.statements = true :=
    sameOrigins_self fun statement hstatement =>
      hnumbered.identified statement (Tree.mem_nodes_of_statement hstatement)
  have hall : (fragments (.ofTree source tree) tree.statements).all Fragment.isKept = true := by
    rw [fragments_eq_map, List.all_map, List.all_eq_true]
    exact fun statement hstatement =>
      isKept_fragment_self hnumbered hspans (Tree.mem_nodes_of_statement hstatement)
  simp [print, hsame, hall]

end Layout

/-- The tree that was read is printed as the source. -/
theorem Parsed.print_tree {source : String} {root : Concrete} {parsed : Parsed}
    (h : root.read source = .ok parsed) : parsed.print parsed.tree = source := by
  have hsource : parsed.tokens.source = source := by rw [Concrete.read_eq_ok h]
  rw [Parsed.print, hsource]
  exact Layout.print_self (Concrete.numbered_of_read h) (Concrete.isSome_span_of_read h)

/-! ### Texts that go through no codemod, or through one that does nothing -/

section onText

variable {σ : Type} {grammar : Grammar} {text : String} {parsed : Parsed}

/-- Without a codemod, the tree is printed as it was read. -/
theorem Transformer.onText_of_no_codemod (hparse : grammar.parse text = .ok parsed)
    (own : Option (List String)) (context : Option Context) (live : Live σ) :
    ({ grammar, ownExtensions := own } : Transformer σ).onText text context live =
      .ok (parsed.print parsed.tree) live := by
  simp only [onText, hparse]
  rfl

/-- A codemod whose hooks are the default ones and whose plan is empty hands a tree on. -/
theorem Prepared.transform_of_idle {prepared : Prepared σ} (hcodemod : prepared.codemod = {})
    (hplan : prepared.plan = []) (context : Context) (tree : Tree) (state : HookState σ) :
    prepared.transform context tree state = .ok tree state := by
  rw [transform, hcodemod, hplan]
  rfl

/-- A codemod without hooks and steps leaves the tree as it was read. -/
theorem Transformer.onText_of_idle (prepared : Prepared σ) (hcodemod : prepared.codemod = {})
    (hplan : prepared.plan = []) (hparse : grammar.parse text = .ok parsed)
    (own : Option (List String)) (context : Option Context) (live : Live σ) :
    ∃ after, ({ grammar, codemod := some prepared, ownExtensions := own } :
        Transformer σ).onText text context live = .ok (parsed.print parsed.tree) after := by
  refine ⟨⟨live.own, .empty, live.journal⟩, ?_⟩
  simp only [onText, hparse, bind, EStateM.bind, transformTree,
    Prepared.transform_of_idle hcodemod hplan]
  rfl

end onText

/-- What the factory of the codemod that changes nothing makes, once it is set up. -/
theorem Registry.build_identity (grammar : Grammar) (own : Option (List String)) (name : String)
    (path : Path) {manifest : Manifest} (hname : manifest.codemod = identityName)
    (journal : Journal) :
    ∃ made, builtin.build manifest journal = (.ok made, journal) ∧
      Loaded.ofInstance grammar own name path made journal =
        (.ok { transformer :=
                 { grammar, codemod := some ⟨name, path, {}, []⟩, ownExtensions := own }
               own := () }, journal) := by
  have hfactory : builtin.get? identityName = some (.ofOptions (fun _ => .ok {}) ()) := by
    rfl
  refine ⟨{ codemod := ({} : Codemod Unit), initial := () }, ?_, rfl⟩
  rw [build, hname, hfactory]
  rfl

/-- A text whose concrete tree has no fault comes back as it was: when its tree is printed
unchanged, when it goes through a transformer without a codemod, and when it goes through the
codemod that changes nothing, wherever that is loaded from and whatever its options are. -/
theorem onText_identity (grammar : Grammar) (text : String)
    (hfaultless : (grammar.tree text).hasError = false) (own : Option (List String)) :
    (∃ parsed, grammar.parse text = .ok parsed ∧ parsed.tokens.source = text ∧
      parsed.print parsed.tree = text) ∧
    (∀ context world, ((Loaded.bare grammar own).onText text context world).1 = .ok text) ∧
    (∀ (manifest : Manifest) (name : String) (path : Path) (journal : Journal),
      manifest.codemod = Registry.identityName →
      ∃ made loaded, Registry.builtin.build manifest journal = (.ok made, journal) ∧
        Loaded.ofInstance grammar own name path made journal = (.ok loaded, journal) ∧
        ∀ context world, (loaded.onText text context world).1 = .ok text) := by
  obtain ⟨parsed, hparse, hsource⟩ := Concrete.exists_read_of_not_hasError text hfaultless
  have hprint : parsed.print parsed.tree = text := Parsed.print_tree hparse
  refine ⟨⟨parsed, hparse, hsource, hprint⟩, ?_, ?_⟩
  · intro context world
    simp only [Loaded.onText, Loaded.runWith, Loaded.bare, RunM.onText, focus,
      Transformer.onText_of_no_codemod hparse, hprint]
  · intro manifest name path journal hname
    obtain ⟨made, hbuild, hloaded⟩ :=
      Registry.build_identity grammar own name path hname journal
    refine ⟨made, _, hbuild, hloaded, ?_⟩
    intro context world
    obtain ⟨after, hafter⟩ := Transformer.onText_of_idle ⟨name, path, {}, []⟩ rfl rfl hparse own
      context (Site.live ⟨(), .empty, world.journal, world.store⟩)
    simp only [Loaded.onText, Loaded.runWith, RunM.onText, focus, hafter, hprint]

/-- A tree whose ranges make no sense: reversed, overlapping, outside of the text, and ending inside
of a character. -/
def scrambled : Concrete :=
  { kind := "program", span := ⟨3, 1⟩
    children :=
      [{ kind := "text", span := ⟨18446744073709551615, 2⟩ },
       { kind := "pair", span := ⟨6, 7⟩
         children := [{ kind := "left", span := ⟨9, 0⟩ }, { kind := "right", span := ⟨0, 40⟩ }] }] }

/-- A text comes back as it was even if the ranges make no sense. -/
theorem onText_identity_scrambled :
    ((Grammar.php fun _ => scrambled).tree "<?php é").hasError = false ∧
      ((Loaded.bare (.php fun _ => scrambled) none).onText "<?php é" none {}).1 = .ok "<?php é" ∧
      ∃ made loaded,
        Registry.builtin.build { codemod := "identity" } {} = (.ok made, {}) ∧
        Loaded.ofInstance (.php fun _ => scrambled) none "identity" ⟨"same.toml"⟩ made {} =
          (.ok loaded, {}) ∧
        (loaded.onText "<?php é" (some (.forFile ⟨"/a.php"⟩ ⟨"/b.php"⟩)) {}).1 = .ok "<?php é" := by
  obtain ⟨-, hbare, hidentity⟩ := onText_identity (.php fun _ => scrambled) "<?php é" rfl none
  obtain ⟨made, loaded, hbuild, hloaded, htext⟩ :=
    hidentity { codemod := "identity" } "identity" ⟨"same.toml"⟩ {} rfl
  exact ⟨rfl, hbare none {}, made, loaded, hbuild, hloaded, htext _ _⟩

end Retouch
