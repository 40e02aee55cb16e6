import Retouch.Proofs.Layout.Kept

/-!
# What stands between printed nodes

Between two printed neighbours, at the inner edges of a printed branch, and around the statements,
printing adds nothing of its own but blanks. It does not matter where a gap comes from, and so the
whole file ends in two statements about arbitrary working trees:

* **A branch** (`woven_nodeText`): whether it is kept or rebuilt, it prints as the texts of its
  children with blanks around them. A kept branch is a slice of the source, and there the blanks are
  those of the source.
* **A tree** (`exists_print_eq`): it prints as the source before the first original statement, the
  texts of the working statements with blanks around them, and the source after the last original
  statement.
-/

namespace Retouch

open Text

/-- The source before the first statement, which is all of it when there is none. -/
def Tree.before (source : String) (tree : Tree) : String :=
  match tree.statements.head? with
  | some first => sliceString source ⟨0, first.place.start⟩
  | none => source

/-- The source after the last statement; nothing when there is none. -/
def Tree.after (source : String) (tree : Tree) : String :=
  match tree.statements.getLast? with
  | some last => sliceString source ⟨last.place.stop, source.utf8ByteSize⟩
  | none => ""

namespace Layout

/-! ### Every gap is blank -/

/-- The blanks of the source between two offsets are found exactly where nothing else stands. -/
theorem blankBetween?_eq_some_iff {source between : String} {start stop : Nat} :
    blankBetween? source start stop = some between ↔
      BlankBetween source start stop ∧ sliceString source ⟨start, stop⟩ = between := by
  unfold blankBetween?
  cases hslice : slice? source.toList ⟨start, stop⟩ with
  | none =>
    have hnone : sliceString? source ⟨start, stop⟩ = none := by
      rw [sliceString?, hslice, Option.map_none]
    constructor
    · intro h
      cases h
    · rintro ⟨⟨hslice, -⟩, -⟩
      rw [HasSlice, hnone] at hslice
      cases hslice
  | some part =>
    have hsome : sliceString? source ⟨start, stop⟩ = some (String.ofList part) := by
      rw [sliceString?, hslice, Option.map_some]
    have hblank : BlankBetween source start stop ↔ allBlank part = true := by
      rw [BlankBetween, AllBlank, sliceString_of_eq hsome, String.toList_ofList]
      exact and_iff_right (hasSlice_of_eq hsome)
    rw [hblank, sliceString_of_eq hsome]
    by_cases hpart : allBlank part = true <;> simp [hpart]

/-- What is taken over from between two offsets is blank. -/
theorem allBlank_blankBetween? (source : String) (start stop : Nat) :
    AllBlank ((blankBetween? source start stop).getD "") := by
  cases hbetween : blankBetween? source start stop with
  | none => rfl
  | some between =>
    obtain ⟨hblank, rfl⟩ := blankBetween?_eq_some_iff.mp hbetween
    exact hblank.2

/-- The gaps at the edges of a node are blank. -/
theorem allBlank_edgeGaps (source : String) (node : Node) :
    AllBlank (edgeGaps source node).1 ∧ AllBlank (edgeGaps source node).2 := by
  unfold edgeGaps
  split
  · exact ⟨allBlank_blankBetween? .., allBlank_blankBetween? ..⟩
  · exact ⟨rfl, rfl⟩

/-- The gap between two tokens is blank. -/
theorem allBlank_tokenGap (printed next : String) : AllBlank (tokenGap printed next) := by
  unfold tokenGap
  split
  · split
    · decide
    · split <;> decide
  · decide

/-- The gap between two neighbours is blank. -/
theorem allBlank_gap (source : String) (statements : Bool) (left right : Node)
    (printed next : String) : AllBlank (gap source statements left right printed next) := by
  unfold gap
  cases hgap : sourceGap? source left right with
  | none =>
    rw [Option.getD_none, fallbackGap]
    split
    · decide
    · exact allBlank_tokenGap printed next
  | some between =>
    obtain ⟨leftSpan, -, hright⟩ := Option.bind_eq_some_iff.mp hgap
    obtain ⟨rightSpan, -, hbetween⟩ := Option.bind_eq_some_iff.mp hright
    have hblank := allBlank_blankBetween? source leftSpan.stop rightSpan.start
    rwa [hbetween] at hblank

/-! ### Joined texts -/

/-- Appending texts to what is printed adds them with blanks around them. -/
theorem exists_joinAfter_eq (source : String) (statements : Bool) (items : List (Node × String))
    (printed : String) (left : Node) :
    ∃ added, joinAfter source statements printed left items = printed ++ added ∧
      Woven AllBlank (items.map Prod.snd) added := by
  induction items generalizing printed left with
  | nil => exact ⟨"", by rw [joinAfter, String.append_empty], .last rfl⟩
  | cons item rest ih =>
    obtain ⟨right, text⟩ := item
    rw [joinAfter]
    obtain ⟨added, hadded, hwoven⟩ :=
      ih (printed ++ gap source statements left right printed text ++ text) right
    refine ⟨gap source statements left right printed text ++ text ++ added, ?_, ?_⟩
    · rw [hadded]
      simp only [String.append_assoc]
    · exact .next (allBlank_gap ..) hwoven

/-- To join texts adds them with blanks around them. -/
theorem exists_join_eq (source : String) (statements : Bool) (items : List (Node × String))
    (printed : String) :
    ∃ added, join source statements printed items = printed ++ added ∧
      Woven AllBlank (items.map Prod.snd) added := by
  cases items with
  | nil => exact ⟨"", by rw [join, String.append_empty], .last rfl⟩
  | cons item rest =>
    obtain ⟨first, text⟩ := item
    obtain ⟨added, hadded, hwoven⟩ :=
      exists_joinAfter_eq source statements rest (printed ++ text) first
    refine ⟨text ++ added, by rw [join, hadded, String.append_assoc], ?_⟩
    have h : Woven AllBlank (text :: rest.map Prod.snd) ("" ++ text ++ added) := .next rfl hwoven
    rwa [String.empty_append] at h

/-- Nodes with the texts that they print as. -/
def withTexts (source : String) (tree : Tree) (nodes : List Node) : List (Node × String) :=
  nodes.map fun node => (node, nodeText source tree node)

/-- The texts that nodes print as are those of their fragments. -/
theorem withTexts_eq_zip (source : String) (tree : Tree) (nodes : List Node) :
    withTexts source tree nodes =
      nodes.zip ((fragments (.ofTree source tree) nodes).map (Fragment.toText source)) := by
  rw [map_toText_fragments]
  exact List.map_prod_left_eq_zip

/-- Each node is paired with the text that it prints as. -/
theorem map_snd_withTexts (source : String) (tree : Tree) (nodes : List Node) :
    (withTexts source tree nodes).map Prod.snd = nodes.map (nodeText source tree) := by
  rw [withTexts, List.map_map]
  rfl

/-- A rebuilt branch, from the texts that its children print as. -/
theorem rebuild_eq (source : String) (tree : Tree) (node : Node) :
    rebuild source node (fragments (.ofTree source tree) node.children) =
      join source false (edgeGaps source node).1 (withTexts source tree node.children) ++
        (edgeGaps source node).2 := by
  rw [withTexts_eq_zip]
  rfl

/-- A rebuilt branch is the texts of its children with blanks around them. -/
theorem woven_rebuild (source : String) (tree : Tree) (node : Node) :
    Woven AllBlank (node.children.map (nodeText source tree))
      (rebuild source node (fragments (.ofTree source tree) node.children)) := by
  obtain ⟨hlead, htrail⟩ := allBlank_edgeGaps source node
  obtain ⟨added, hadded, hwoven⟩ := exists_join_eq source false
    (withTexts source tree node.children) (edgeGaps source node).1
  rw [map_snd_withTexts] at hwoven
  have hend : Woven AllBlank [] (edgeGaps source node).2 := .last htrail
  have hbody := (hwoven.prepend allBlank_closed hlead).append allBlank_closed hend
  rw [List.append_nil, ← hadded] at hbody
  rw [rebuild_eq]
  exact hbody

section original

variable {source : String} {tree : Tree}

/-- A slice of the source in which ranges are lined up is the slices of these ranges with blanks
around them. -/
theorem woven_slice {start stop : Nat} {spans : List Span} (h : Lined source stop start spans) :
    Woven AllBlank (spans.map (sliceString source)) (sliceString source ⟨start, stop⟩) := by
  have hedits : Lined source stop start
      ((spans.map fun span => (span, sliceString source span)).map Prod.fst) := by
    rw [List.map_map]
    exact (List.map_id spans).symm ▸ h
  have hwoven := hedits.woven
  rw [spliceTo_self h.inOrder, List.map_map] at hwoven
  exact hwoven

/-- Nodes that are kept for given nodes of the source print as the slices of these. -/
theorem map_nodeText_of_kept {bases nodes : List Node}
    (h : fragments (.ofTree source tree) nodes = bases.map fun base => .kept base.place) :
    nodes.map (nodeText source tree) = (bases.map Node.place).map (sliceString source) := by
  rw [← map_toText_fragments, h, List.map_map, List.map_map]
  rfl

/-- A branch prints as the texts of its children with blanks around them. -/
theorem woven_nodeText (h : Original source tree) {node : Node} (htext : node.text = none) :
    Woven AllBlank (node.children.map (nodeText source tree)) (nodeText source tree node) := by
  rw [nodeText]
  rcases fragment_branch_cases h htext with ⟨base, hmem, -, hbranch, hkept, hchildren⟩ | hfresh
  · rw [hkept, map_nodeText_of_kept hchildren]
    exact woven_slice ((h.settled base hmem).lined hbranch)
  · rw [hfresh]
    exact woven_rebuild source tree node

/-! ### Whole trees -/

/-- The statements of an original tree are lined up in a middle part of the source, from the start
of the first to the end of the last, unless there are none. -/
theorem statements_cases (h : Original source tree) :
    (tree.statements = [] ∧
        statementsSpan source tree = ⟨source.utf8ByteSize, source.utf8ByteSize⟩ ∧
        tree.before source = source ∧ tree.after source = "") ∨
      ∃ first last, (tree.statements.map Node.place).head? = some first ∧
        (tree.statements.map Node.place).getLast? = some last ∧
        Lined source last.stop first.start (tree.statements.map Node.place) ∧
        statementsSpan source tree = ⟨first.start, last.stop⟩ ∧
        tree.before source = sliceString source ⟨0, first.start⟩ ∧
        tree.after source = sliceString source ⟨last.stop, source.utf8ByteSize⟩ := by
  cases hhead : tree.statements.head? with
  | none =>
    have hnil := List.head?_eq_none_iff.mp hhead
    refine Or.inl ⟨hnil, ?_, ?_, ?_⟩
    · simp [statementsSpan, hnil]
    · simp [Tree.before, hnil]
    · simp [Tree.after, hnil]
  | some first =>
    cases hend : tree.statements.getLast? with
    | none =>
      rw [List.getLast?_eq_none_iff] at hend
      rw [hend] at hhead
      cases hhead
    | some last =>
      have hfirst : (tree.statements.map Node.place).head? = some first.place := by
        rw [List.head?_map, hhead, Option.map_some]
      have hlast : (tree.statements.map Node.place).getLast? = some last.place := by
        rw [List.getLast?_map, hend, Option.map_some]
      have hfirstSpan := (h.settled first
        (Tree.mem_nodes_of_statement (List.mem_of_head? hhead))).span_eq
      have hlastSpan := (h.settled last
        (Tree.mem_nodes_of_statement (List.mem_of_getLast? hend))).span_eq
      refine Or.inr ⟨first.place, last.place, hfirst, hlast, ?_, ?_, ?_, ?_⟩
      · exact h.lined first.place hfirst last.place hlast
      · rw [statementsSpan, hhead, hend, Option.bind_some, Option.bind_some, hfirstSpan, hlastSpan]
      · rw [Tree.before, hhead]
      · rw [Tree.after, hend]

/-- Around the statements, the source is the text before them and the text after them. -/
theorem source_eq_of_lined {start stop : Nat} {spans : List Span}
    (h : Lined source stop start spans) :
    sliceString source ⟨0, start⟩ ++ sliceString source ⟨start, stop⟩ ++
      sliceString source ⟨stop, source.utf8ByteSize⟩ = source := by
  have hslice := h.inOrder.hasSlice
  rw [sliceString_append hslice.before hslice,
    sliceString_append (hslice.before.trans hslice) hslice.after, sliceString_whole]

/-- The statements of a working tree are all kept in place, and it prints as the source; or they
are joined between the text of the source before its statements and the text after them. -/
theorem print_cases (h : Original source tree) (edited : Tree) :
    (fragments (.ofTree source tree) edited.statements =
          tree.statements.map (fun base => .kept base.place) ∧
        print tree source edited = source) ∨
      print tree source edited =
        join source true (tree.before source) (withTexts source tree edited.statements) ++
          tree.after source := by
  simp only [print]
  split
  case isTrue hsame =>
    rw [Bool.and_eq_true] at hsame
    exact Or.inl ⟨fragments_of_sameOrigins h (fun base hbase => Tree.mem_nodes_of_statement hbase)
      hsame.1 hsame.2, rfl⟩
  case isFalse =>
    refine Or.inr ?_
    rw [← withTexts_eq_zip]
    rcases statements_cases h with
      ⟨-, hspan, hbefore, hafter⟩ | ⟨first, last, -, -, -, hspan, hbefore, hafter⟩
    · rw [hspan, hbefore, hafter, sliceString_whole, sliceString_self]
    · rw [hspan, hbefore, hafter]

/-- A working tree prints as the texts of its statements with blanks around them, between the text
of the source before its statements and the text after them. -/
theorem exists_print_eq (h : Original source tree) (edited : Tree) :
    ∃ body, print tree source edited = tree.before source ++ body ++ tree.after source ∧
      Woven AllBlank (edited.statements.map (nodeText source tree)) body := by
  rcases print_cases h edited with ⟨hkept, hprint⟩ | hprint
  · rw [hprint, map_nodeText_of_kept hkept]
    rcases statements_cases h with
      ⟨hnil, -, hbefore, hafter⟩ | ⟨first, last, -, -, hlined, -, hbefore, hafter⟩
    · refine ⟨"", ?_, ?_⟩
      · rw [hbefore, hafter, String.append_empty, String.append_empty]
      · rw [hnil]
        exact .last rfl
    · refine ⟨sliceString source ⟨first.start, last.stop⟩, ?_, woven_slice hlined⟩
      rw [hbefore, hafter, source_eq_of_lined hlined]
  · obtain ⟨body, hbody, hwoven⟩ := exists_join_eq source true
      (withTexts source tree edited.statements) (tree.before source)
    rw [map_snd_withTexts] at hwoven
    exact ⟨body, by rw [hprint, hbody], hwoven⟩

end original

end Layout

/-- Printing against what was read is printing against its tree and its source. -/
theorem Parsed.print_eq {source : String} {root : Concrete} {parsed : Parsed}
    (h : root.read source = .ok parsed) (edited : Tree) :
    parsed.print edited = Layout.print parsed.tree source edited := by
  rw [Concrete.read_eq_ok h]
  rfl

end Retouch
