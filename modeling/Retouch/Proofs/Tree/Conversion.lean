import Retouch.Proofs.Tree.Reading

/-!
# Reading copies the concrete tree

A concrete tree without faults is read as a working tree of the same shape. This holds for every
source and for all ranges, be they reversed, outside of the source or inside of a character.

* **Nodes** (`Mirrors`): a working node has the kind, the role and the range of its concrete node. A
  concrete node without children becomes a leaf with the text that its range covers (`Covers`), and
  any other one becomes a branch whose children mirror its children.
* **Tokens** (`Token.Marks`): the tokens are the leaves of the working tree, one for one and in
  document order.
* **Order of tokens** (`pairwise_tokens`): if ranges are nested and in order, then each token ends
  before the next one starts, since two tokens are below different children of some node.

The tokens are not compared with what made them but with the working tree: all that is known of that
tree is that it mirrors the concrete one.
-/

namespace Retouch

/-! ### Concrete nodes in document order -/

namespace Concrete

mutual

/-- Induction on a concrete node from its children. -/
@[elab_as_elim]
theorem childInduction {motive : Concrete → Prop}
    (step : ∀ raw, (∀ child ∈ raw.children, motive child) → motive raw) :
    (raw : Concrete) → motive raw
  | ⟨kind, field, span, isError, isMissing, hasError, children⟩ =>
      step ⟨kind, field, span, isError, isMissing, hasError, children⟩
        (childInduction_list step children)

/-- The same for all nodes of a list. -/
theorem childInduction_list {motive : Concrete → Prop}
    (step : ∀ raw, (∀ child ∈ raw.children, motive child) → motive raw) :
    (raws : List Concrete) → ∀ raw ∈ raws, motive raw
  | [], _, hraw => absurd hraw List.not_mem_nil
  | first :: rest, raw, hraw => by
      rcases List.mem_cons.mp hraw with hfirst | hrest
      · rw [hfirst]
        exact childInduction step first
      · exact childInduction_list step rest raw hrest

end

mutual

/-- The concrete node and all nodes below it, each before its children. -/
def preorder : Concrete → List Concrete
  | raw@{ children, .. } => raw :: preorderList children

/-- All nodes of a list of concrete trees, each before its children. -/
def preorderList : List Concrete → List Concrete
  | [] => []
  | raw :: rest => preorder raw ++ preorderList rest

end

/-- The nodes of neighbours come one tree after the other. -/
theorem preorderList_eq_flatMap (raws : List Concrete) :
    preorderList raws = raws.flatMap preorder := by
  induction raws with
  | nil => rfl
  | cons raw rest ih => rw [preorderList, ih, List.flatMap_cons]

/-- A node comes before all nodes below it. -/
theorem preorder_eq (raw : Concrete) : raw.preorder = raw :: raw.children.flatMap preorder := by
  cases raw
  rw [preorder, preorderList_eq_flatMap]

/-- A node is among its own nodes. -/
theorem mem_preorder_self (raw : Concrete) : raw ∈ raw.preorder := by
  rw [preorder_eq]
  exact List.mem_cons_self

/-- What is below a child is below the node. -/
theorem mem_preorder_below {raw child below : Concrete} (hchild : child ∈ raw.children)
    (hbelow : below ∈ child.preorder) : below ∈ raw.preorder := by
  rw [preorder_eq]
  exact List.mem_cons_of_mem _ (List.mem_flatMap.mpr ⟨child, hchild, hbelow⟩)

/-- The tokens of neighbours come one tree after the other. -/
theorem tokensList_eq_flatMap (raws : List Concrete) :
    tokensList raws = raws.flatMap tokens := by
  induction raws with
  | nil => rfl
  | cons raw rest ih => rw [tokensList, ih, List.flatMap_cons]

/-- A node without children is a token. -/
theorem tokens_of_leaf {raw : Concrete} (h : raw.children = []) :
    raw.tokens = [⟨raw.kind, raw.span⟩] := by
  obtain ⟨_, _, _, _, _, _, _⟩ := raw
  subst h
  rfl

/-- The tokens of a node with children are theirs. -/
theorem tokens_of_branch {raw : Concrete} (h : raw.children ≠ []) :
    raw.tokens = raw.children.flatMap tokens := by
  obtain ⟨_, _, _, _, _, _, children⟩ := raw
  cases children with
  | nil => exact absurd rfl h
  | cons first rest => exact tokensList_eq_flatMap (first :: rest)

end Concrete

/-! ### What a range covers -/

namespace Text

/-- The text that a range covers: the part of the source between its ends, and nothing when the ends
are out of order, outside of the source or inside of a character. -/
inductive Covers (source : String) (span : Span) : String → Prop
  | part {front part back : String} (hsource : source = front ++ part ++ back)
      (hstart : front.utf8ByteSize = span.start)
      (hstop : front.utf8ByteSize + part.utf8ByteSize = span.stop) : Covers source span part
  | nothing (hbad : ¬ (span.start ≤ span.stop ∧ IsBoundary source span.start ∧
      IsBoundary source span.stop)) : Covers source span ""

/-- Of two first parts of one text, the shorter one begins the longer one. -/
theorem exists_between {front rest longer back : String} (h : front ++ rest = longer ++ back)
    (hsize : front.utf8ByteSize ≤ longer.utf8ByteSize) :
    ∃ middle, longer = front ++ middle := by
  have hchars : front.toList ++ rest.toList = longer.toList ++ back.toList := by
    rw [← String.toList_append, ← String.toList_append, h]
  rcases List.append_eq_append_iff.mp hchars with ⟨middle, hlonger, -⟩ | ⟨middle, hfront, -⟩
  · refine ⟨String.ofList middle, String.toList_inj.mp ?_⟩
    rw [String.toList_append, String.toList_ofList, hlonger]
  · -- the longer one is a first part of the shorter one, so they are the same
    have hfront' : front = longer ++ String.ofList middle := by
      apply String.toList_inj.mp
      rw [String.toList_append, String.toList_ofList, hfront]
    rw [hfront', String.utf8ByteSize_append] at hsize
    have hmiddle : String.ofList middle = "" := String.utf8ByteSize_eq_zero_iff.mp (by omega)
    exact ⟨"", by rw [hfront', hmiddle, String.append_empty, String.append_empty]⟩

/-- A range is a part of the source exactly when its ends are in order and between characters. -/
theorem hasSlice_iff {source : String} {span : Span} :
    HasSlice source span ↔
      span.start ≤ span.stop ∧ IsBoundary source span.start ∧ IsBoundary source span.stop := by
  rw [isBoundary_iff_exists_append, isBoundary_iff_exists_append]
  constructor
  · intro h
    obtain ⟨front, back, hsource, hstart, hstop⟩ := h.split
    refine ⟨by omega, ⟨front, _, hsource.trans String.append_assoc, hstart⟩, ?_⟩
    exact ⟨_, back, hsource, by rw [String.utf8ByteSize_append, hstop]⟩
  · rintro ⟨horder, ⟨front, rest, hfront, hstart⟩, ⟨longer, back, hlonger, hstop⟩⟩
    obtain ⟨middle, rfl⟩ := exists_between (hfront.symm.trans hlonger) (by omega)
    rw [String.utf8ByteSize_append] at hstop
    exact hasSlice_of_eq (sliceString?_eq_some_iff.mpr ⟨front, back, hlonger, hstart, hstop⟩)

/-- The text that a range covers is the one that is cut out of the source. -/
theorem covers_iff {source : String} {span : Span} {text : String} :
    Covers source span text ↔ text = sliceString source span := by
  constructor
  · rintro (⟨hsource, hstart, hstop⟩ | hbad)
    · exact (sliceString_of_eq (sliceString?_eq_some_iff.mpr ⟨_, _, hsource, hstart, hstop⟩)).symm
    · rw [← hasSlice_iff, HasSlice, Option.not_isSome_iff_eq_none] at hbad
      rw [sliceString, hbad, Option.getD_none]
  · rintro rfl
    by_cases hslice : HasSlice source span
    · obtain ⟨front, back, hsource, hstart, hstop⟩ := hslice.split
      exact .part hsource hstart hstop
    · have hnone := Option.not_isSome_iff_eq_none.mp hslice
      rw [sliceString, hnone, Option.getD_none]
      exact .nothing (mt hasSlice_iff.mpr hslice)

end Text

open Text

/-! ### Working nodes that mirror concrete ones -/

/-- The working node has the kind, the role and the range of the concrete one. Without children it
is a leaf with the text that the range covers, and else a branch whose children mirror those of the
concrete node, one for one. -/
inductive Mirrors (source : String) : (raw : Concrete) → (node : Node) → Prop
  | leaf {raw : Concrete} {node : Node} {text : String} (hkind : node.kind = raw.kind)
      (hfield : node.field = raw.field) (hspan : node.span = some raw.span)
      (hraw : raw.children = []) (hnode : node.children = []) (htext : node.text = some text)
      (hcovers : Covers source raw.span text) : Mirrors source raw node
  | branch {raw : Concrete} {node : Node} (hkind : node.kind = raw.kind)
      (hfield : node.field = raw.field) (hspan : node.span = some raw.span)
      (hraw : raw.children ≠ []) (htext : node.text = none)
      (hchildren : List.Forall₂ (Mirrors source) raw.children node.children) :
      Mirrors source raw node

namespace Concrete

/-- A node without children becomes a leaf with the text of its range. -/
theorem toNode_of_leaf (source : String) (next : Nat) {raw : Concrete} (h : raw.children = []) :
    raw.toNode source next =
      ({ kind := raw.kind, field := raw.field, text := some (sliceString source raw.span)
         origin := some ⟨next⟩, span := some raw.span }, next + 1) := by
  obtain ⟨_, _, _, _, _, _, _⟩ := raw
  subst h
  rfl

/-- A node with children becomes a branch without a text of its own, and is numbered before them. -/
theorem toNode_of_branch (source : String) (next : Nat) {raw : Concrete}
    (h : raw.children ≠ []) :
    raw.toNode source next =
      ({ kind := raw.kind, field := raw.field
         children := (toNodes source (next + 1) raw.children).1
         origin := some ⟨next⟩, span := some raw.span },
        (toNodes source (next + 1) raw.children).2) := by
  obtain ⟨_, _, _, _, _, _, children⟩ := raw
  cases children with
  | nil => exact absurd rfl h
  | cons first rest => rfl

/-- Neighbours are mirrored one for one, if each of them is, whatever number it gets. -/
theorem forall₂_mirrors_toNodes {source : String} {raws : List Concrete}
    (h : ∀ raw ∈ raws, ∀ next, Mirrors source raw (raw.toNode source next).1) (next : Nat) :
    List.Forall₂ (Mirrors source) raws (toNodes source next raws).1 := by
  induction raws generalizing next with
  | nil => exact .nil
  | cons raw rest ih =>
    rw [toNodes_cons]
    exact .cons (h raw List.mem_cons_self next)
      (ih (fun other hother => h other (List.mem_cons_of_mem _ hother)) _)

/-- The working node mirrors the concrete one from which it is made. -/
theorem mirrors_toNode (source : String) (raw : Concrete) (next : Nat) :
    Mirrors source raw (raw.toNode source next).1 := by
  induction raw using childInduction generalizing next with
  | step raw ih =>
    by_cases hleaf : raw.children = []
    · rw [toNode_of_leaf source next hleaf]
      exact .leaf rfl rfl rfl hleaf rfl rfl (covers_iff.mpr rfl)
    · rw [toNode_of_branch source next hleaf]
      exact .branch rfl rfl rfl hleaf rfl (forall₂_mirrors_toNodes ih (next + 1))

end Concrete

/-! ### Tokens and leaves -/

/-- The leaves of a tree in document order. -/
def Tree.leaves (tree : Tree) : List Node :=
  tree.nodes.filter Node.isLeaf

/-- The token of a stream stands for the leaf: it has the kind and the range of the leaf, and the
stream gives the text of the leaf for it. -/
structure Token.Marks (stream : TokenStream) (token : Token) (leaf : Node) : Prop where
  kind : leaf.kind = token.kind
  span : leaf.span = some token.span
  text : leaf.text = some (stream.text token)

/-- The tokens at and below a concrete node stand for the leaves at and below its mirror. -/
theorem Mirrors.forall₂_marks {stream : TokenStream} {raw : Concrete} {node : Node}
    (h : Mirrors stream.source raw node) :
    List.Forall₂ (Token.Marks stream) raw.tokens (node.preorder.filter Node.isLeaf) := by
  induction raw using Concrete.childInduction generalizing node with
  | step raw ih =>
    rw [Node.preorder_eq, List.filter_cons, Node.preorderList_eq_flatMap, List.filter_flatMap]
    cases h with
    | leaf hkind hfield hspan hraw hnode htext hcovers =>
      have hleaf : node.isLeaf = true := by rw [Node.isLeaf, htext, Option.isSome_some]
      rw [if_pos hleaf, hnode, Concrete.tokens_of_leaf hraw]
      refine .cons ⟨hkind, hspan, ?_⟩ .nil
      rw [htext, covers_iff.mp hcovers]
      rfl
    | branch hkind hfield hspan hraw htext hchildren =>
      have hbranch : ¬ node.isLeaf = true := by simp [Node.isLeaf, htext]
      rw [if_neg hbranch, Concrete.tokens_of_branch hraw]
      have hboth := (List.forall₂_and_left _ _).mpr
        ⟨fun child hchild other => @ih child hchild other, hchildren⟩
      exact List.rel_flatMap hboth fun child other hother => hother.1 other hother.2

/-- The same for neighbours. -/
theorem forall₂_marks_of_mirrors (stream : TokenStream) {raws : List Concrete} {nodes : List Node}
    (h : List.Forall₂ (Mirrors stream.source) raws nodes) :
    List.Forall₂ (Token.Marks stream) (Concrete.tokensList raws)
      ((Node.preorderList nodes).filter Node.isLeaf) := by
  rw [Concrete.tokensList_eq_flatMap, Node.preorderList_eq_flatMap, List.filter_flatMap]
  exact List.rel_flatMap h fun raw node hmirrors => hmirrors.forall₂_marks

/-! ### The order of tokens -/

namespace Concrete

/-- The ranges of the children are inside of the range of the node, and each of them ends before the
later ones start. -/
def Encloses (raw : Concrete) : Prop :=
  (∀ child ∈ raw.children,
    raw.span.start ≤ child.span.start ∧ child.span.stop ≤ raw.span.stop) ∧
  raw.children.Pairwise fun left right => left.span.stop ≤ right.span.start

instance (raw : Concrete) : Decidable raw.Encloses :=
  inferInstanceAs (Decidable (_ ∧ _))

/-- All ranges of the tree are nested and in order. -/
def Nested (root : Concrete) : Prop :=
  ∀ raw ∈ root.preorder, raw.Encloses

instance (root : Concrete) : Decidable root.Nested :=
  inferInstanceAs (Decidable (∀ raw ∈ root.preorder, raw.Encloses))

/-- The ranges below a child are nested and in order if all are. -/
theorem Nested.child {raw child : Concrete} (h : raw.Nested) (hchild : child ∈ raw.children) :
    child.Nested :=
  fun below hbelow => h below (mem_preorder_below hchild hbelow)

/-- Tokens stay inside of the range of the node that they are below. -/
theorem tokens_inside {raw : Concrete} (h : raw.Nested) {token : Token}
    (htoken : token ∈ raw.tokens) :
    raw.span.start ≤ token.span.start ∧ token.span.stop ≤ raw.span.stop := by
  induction raw using childInduction with
  | step raw ih =>
    by_cases hleaf : raw.children = []
    · rw [tokens_of_leaf hleaf, List.mem_singleton] at htoken
      rw [htoken]
      exact ⟨Nat.le_refl _, Nat.le_refl _⟩
    · rw [tokens_of_branch hleaf, List.mem_flatMap] at htoken
      obtain ⟨child, hchild, htoken⟩ := htoken
      have hinside := (h raw raw.mem_preorder_self).1 child hchild
      have hbelow := ih child hchild (h.child hchild) htoken
      omega

/-- Tokens below different neighbours are in the order of these neighbours. -/
theorem pairwise_flatMap_tokens {raws : List Concrete} (hnested : ∀ raw ∈ raws, raw.Nested)
    (hordered : raws.Pairwise fun left right => left.span.stop ≤ right.span.start)
    (h : ∀ raw ∈ raws, raw.tokens.Pairwise fun left right => left.span.stop ≤ right.span.start) :
    (raws.flatMap tokens).Pairwise fun left right => left.span.stop ≤ right.span.start := by
  refine List.pairwise_flatMap.mpr ⟨h, hordered.imp_of_mem ?_⟩
  intro left right hleft hright horder first hfirst second hsecond
  have hstop := (tokens_inside (hnested left hleft) hfirst).2
  have hstart := (tokens_inside (hnested right hright) hsecond).1
  omega

/-- If ranges are nested and in order, each token ends before the later ones start. -/
theorem pairwise_tokens {raw : Concrete} (h : raw.Nested) :
    raw.tokens.Pairwise fun left right => left.span.stop ≤ right.span.start := by
  induction raw using childInduction with
  | step raw ih =>
    by_cases hleaf : raw.children = []
    · rw [tokens_of_leaf hleaf]
      exact List.pairwise_singleton _ _
    · rw [tokens_of_branch hleaf]
      exact pairwise_flatMap_tokens (fun child => h.child) (h raw raw.mem_preorder_self).2
        fun child hchild => ih child hchild (h.child hchild)

/-! ### Reading -/

/-- Without a fault at the root, reading succeeds. The statements mirror the children of the root.
Identities count the nodes in document order. The tokens stand for the leaves in document order, and
each of them ends before the later ones start if ranges are nested and in order. -/
theorem read_mirrors (source : String) {root : Concrete} (hfaultless : root.hasError = false) :
    ∃ parsed, root.read source = .ok parsed ∧
      List.Forall₂ (Mirrors source) root.children parsed.tree.statements ∧
      parsed.tree.nodes.map Node.origin =
        (List.range parsed.tree.nodes.length).map (fun index => some ⟨index⟩) ∧
      (parsed.tree.nodes.map Node.origin).Nodup ∧
      parsed.tokens.source = source ∧
      List.Forall₂ (Token.Marks parsed.tokens) parsed.tokens.tokens parsed.tree.leaves ∧
      (root.Nested → parsed.tokens.tokens.Pairwise fun left right =>
        left.span.stop ≤ right.span.start) := by
  have hread : root.read source =
      .ok ⟨⟨(toNodes source 0 root.children).1⟩, ⟨source, tokensList root.children⟩⟩ := by
    rw [read, hfaultless]
    rfl
  have hmirrors : List.Forall₂ (Mirrors source) root.children (toNodes source 0 root.children).1 :=
    forall₂_mirrors_toNodes (fun raw _ => mirrors_toNode source raw) 0
  refine ⟨_, hread, hmirrors, ?_, (numbered_of_read hread).distinct, rfl, ?_, ?_⟩
  · obtain ⟨count, -, horigins⟩ := origins_toNodes source root.children 0
    have hcount := congrArg List.length horigins
    rw [idsFrom, List.length_map, List.length_map, List.length_range'] at hcount
    rw [Tree.nodes, horigins, hcount, idsFrom, List.range_eq_range']
  · exact forall₂_marks_of_mirrors ⟨source, tokensList root.children⟩ hmirrors
  · intro hnested
    show (tokensList root.children).Pairwise _
    rw [tokensList_eq_flatMap]
    exact pairwise_flatMap_tokens (fun child => hnested.child)
      (hnested root root.mem_preorder_self).2
      fun child hchild => pairwise_tokens (hnested.child hchild)

/-- A tree whose ranges are nested and in order, but one of them ends inside of a character and
others go beyond the source. -/
def torn : Concrete :=
  { kind := "program", span := ⟨0, 40⟩
    children :=
      [{ kind := "pair", field := some "left", span := ⟨0, 3⟩
         children := [{ kind := "half", span := ⟨0, 1⟩ }, { kind := "letter", span := ⟨2, 3⟩ }] },
       { kind := "rest", span := ⟨3, 40⟩ }] }

/-- The range that ends inside of a character and the ranges beyond the source give empty texts. -/
theorem read_mirrors_torn :
    torn.hasError = false ∧ torn.Nested ∧
      ∃ parsed, torn.read "éa" = .ok parsed ∧
        List.Forall₂ (Mirrors "éa") torn.children parsed.tree.statements ∧
        parsed.tree.nodes.map Node.origin = [some ⟨0⟩, some ⟨1⟩, some ⟨2⟩, some ⟨3⟩] ∧
        parsed.tokens.tokens.map parsed.tokens.text = ["", "a", ""] ∧
        List.Forall₂ (Token.Marks parsed.tokens) parsed.tokens.tokens parsed.tree.leaves ∧
        parsed.tokens.tokens.Pairwise fun left right => left.span.stop ≤ right.span.start := by
  have hfaultless : torn.hasError = false := rfl
  have hnested : torn.Nested := by decide
  obtain ⟨parsed, hread, hmirrors, -, -, -, hmarks, horder⟩ := read_mirrors "éa" hfaultless
  refine ⟨hfaultless, hnested, parsed, hread, hmirrors, ?_, ?_, hmarks, horder hnested⟩
  · cases hread
    rfl
  · cases hread
    decide

end Concrete

end Retouch
