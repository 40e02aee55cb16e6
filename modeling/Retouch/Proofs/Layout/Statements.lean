import Retouch.Proofs.Layout.Rendering
import Retouch.Proofs.Layout.Splicing
import Retouch.Proofs.Run.RoundTrip

/-!
# Dropping and adding statements

A codemod may drop some of the statements of a file and write new ones behind the rest. What the
result prints as is said here without the printer: by the ranges of the original statements, and by
the code of the new ones.

* **What stands between two kept statements** (`keptGap`): the source between them, if the
  statements that were dropped there are blank; a newline otherwise. The printer does not know what
  was dropped. It asks whether the source between the two is blank, and since statements have blanks
  only around them, that comes to the same (`gap_of_kept`).
* **The statements** (`keptText`, `statementsText`): the kept ones as they stand in the source, then
  each new one on a line of its own.
* **The file** (`print_kept_append_fresh`): the text before the first original statement and the one
  after the last stay, whichever statements are dropped, the first and the last included.
-/

namespace Retouch

open Text

/-! ### Statements between two others -/

/-- The statements of a tree that lie between two of them. -/
def Tree.between (tree : Tree) (left right : Node) : List Node :=
  ((tree.statements.dropWhile (· ≠ left)).drop 1).takeWhile (· ≠ right)

/-- In a list of distinct nodes, those before a node are other nodes. -/
theorem forall_mem_ne_of_nodup {node : Node} {front back : List Node}
    (h : (front ++ node :: back).Nodup) : ∀ other ∈ front, decide (other ≠ node) = true := by
  intro other hother
  have hne := (List.nodup_append.mp h).2.2 other hother node List.mem_cons_self
  exact decide_eq_true hne

/-- The statements between two others are found by the place of these. -/
theorem Tree.between_eq {tree : Tree} {left right : Node} {front middle back : List Node}
    (hdistinct : tree.statements.Nodup)
    (h : tree.statements = front ++ left :: (middle ++ right :: back)) :
    tree.between left right = middle := by
  rw [h] at hdistinct
  have hfront := forall_mem_ne_of_nodup hdistinct
  have hmiddle := forall_mem_ne_of_nodup (List.nodup_append.mp hdistinct).2.1.of_cons
  rw [between, h, List.dropWhile_append_of_pos hfront,
    List.dropWhile_cons_of_neg (by simp), List.drop_one, List.tail_cons,
    List.takeWhile_append_of_pos hmiddle, List.takeWhile_cons_of_neg (by simp), List.append_nil]

/-- Two nodes in the order of a list split it into three parts. -/
theorem exists_split_of_sublist {left right : Node} {nodes : List Node}
    (h : [left, right].Sublist nodes) :
    ∃ front middle back, nodes = front ++ left :: (middle ++ right :: back) := by
  obtain ⟨upToLeft, others, rfl, hleft, hothers⟩ := List.cons_sublist_iff.mp h
  obtain ⟨front, afterLeft, rfl⟩ := List.append_of_mem hleft
  obtain ⟨beforeRight, back, rfl⟩ := List.append_of_mem (List.singleton_sublist.mp hothers)
  exact ⟨front, afterLeft ++ beforeRight, back, by simp⟩

namespace Layout

/-! ### What the statements print as -/

/-- What stands between two statements when those between them are dropped: the source, if nothing
is lost with the dropped ones but blanks. -/
def keptGap (source : String) (tree : Tree) (left right : Node) : String :=
  if ∀ dropped ∈ tree.between left right, AllBlank (sliceString source dropped.place) then
    sliceString source ⟨left.place.stop, right.place.start⟩
  else "\n"

/-- The texts of statements behind a statement that is kept like them. -/
def keptTextAfter (source : String) (tree : Tree) : Node → List Node → String
  | _, [] => ""
  | left, right :: rest =>
    keptGap source tree left right ++ sliceString source right.place ++
      keptTextAfter source tree right rest

/-- The text of the statements that are kept. -/
def keptText (source : String) (tree : Tree) : List Node → String
  | [] => ""
  | first :: rest => sliceString source first.place ++ keptTextAfter source tree first rest

/-- The text of the statements that are kept, followed by new ones on lines of their own. -/
def statementsText (source : String) (tree : Tree) (kept fresh : List Node) : String :=
  "\n".intercalate
    ((if kept.isEmpty then [] else [keptText source tree kept]) ++ fresh.map Node.toCode)

section original

variable {source : String} {tree : Tree}

/-- Ranges that are lined up leave a blank part of the source exactly if their own parts of it are
blank. -/
theorem blankBetween_iff_of_lined {start stop : Nat} {spans : List Span}
    (h : Lined source stop start spans) :
    BlankBetween source start stop ↔ ∀ span ∈ spans, AllBlank (sliceString source span) := by
  have hwoven := (woven_slice h).allBlank_iff
  rw [List.forall_mem_map] at hwoven
  rw [← hwoven]
  exact and_iff_right h.inOrder.hasSlice

/-- Statements without a gap to take over are on lines of their own. -/
theorem gap_of_no_sourceGap {left right : Node} (h : sourceGap? source left right = none)
    (printed next : String) : gap source true left right printed next = "\n" := by
  rw [gap, h, Option.getD_none, fallbackGap]
  rfl

/-- The statements between two others are lined up between these. -/
theorem lined_between (h : Original source tree) {left right : Node}
    (hkept : [left, right].Sublist tree.statements) :
    Lined source right.place.start left.place.stop
      ((tree.between left right).map Node.place) := by
  obtain ⟨front, middle, back, hsplit⟩ := exists_split_of_sublist hkept
  rw [Tree.between_eq h.nodup_statements hsplit]
  rcases statements_cases h with ⟨hnil, -⟩ | ⟨first, last, -, -, hlined, -⟩
  · rw [hnil] at hkept
    cases hkept
  · rw [hsplit, List.map_append, List.map_cons, List.map_append, List.map_cons] at hlined
    exact hlined.behind.until

/-- The gap between two kept statements tells whether anything but blanks was dropped there. -/
theorem gap_of_kept (h : Original source tree) {left right : Node}
    (hkept : [left, right].Sublist tree.statements) (printed next : String) :
    gap source true left right printed next = keptGap source tree left right := by
  have hspan : ∀ node ∈ [left, right], node.span = some node.place := fun node hnode =>
    (h.settled node (Tree.mem_nodes_of_statement (hkept.subset hnode))).span_eq
  have hleft := hspan left (by simp)
  have hright := hspan right (by simp)
  have hblank := blankBetween_iff_of_lined (lined_between h hkept)
  rw [List.forall_mem_map] at hblank
  unfold keptGap
  split
  case isTrue hdropped =>
    exact gap_of_blankBetween hleft hright (hblank.mpr hdropped) true printed next
  case isFalse hdropped =>
    apply gap_of_no_sourceGap
    rw [sourceGap?, hleft, hright]
    rw [← hblank] at hdropped
    apply Option.eq_none_iff_forall_ne_some.mpr
    intro between hbetween
    exact hdropped (blankBetween?_eq_some_iff.mp hbetween).1

/-- A statement of the original tree prints as its part of the source. -/
theorem nodeText_of_statement (h : Original source tree) {node : Node}
    (hnode : node ∈ tree.statements) :
    nodeText source tree node = sliceString source node.place := by
  have hmem := Tree.mem_nodes_of_statement hnode
  have hspans : ∀ node ∈ tree.nodes, node.span.isSome := by
    intro node hnode
    rw [(h.settled node hnode).span_eq, Option.isSome_some]
  have hsame : sameOrigins [node] [node] = true :=
    sameOrigins_self (by simp [h.identified node hmem])
  have hkept : (fragments (.ofTree source tree) [node]).all Fragment.isKept = true := by
    simp [fragments, isKept_fragment_self h.toNumbered hspans hmem]
  have htexts := map_nodeText_of_kept (fragments_of_sameOrigins h (by simpa using hmem) hsame hkept)
  simpa using htexts

/-- New statements behind what is printed go on lines of their own. -/
theorem joinAfter_fresh {fresh : List Node} (hfresh : ∀ node ∈ fresh, node.Fresh)
    (printed : String) (left : Node) :
    joinAfter source true printed left (withTexts source tree fresh) =
      "\n".intercalate (printed :: fresh.map Node.toCode) := by
  induction fresh generalizing printed left with
  | nil => exact String.intercalate_singleton.symm
  | cons node rest ih =>
    obtain ⟨hnode, hrest⟩ := List.forall_mem_cons.mp hfresh
    have hgap : sourceGap? source left node = none :=
      sourceGap?_of_unplaced (Or.inr hnode.span_eq)
    rw [withTexts, List.map_cons, joinAfter, gap_of_no_sourceGap hgap, nodeText_of_fresh hnode]
    rw [← withTexts, ih hrest, List.map_cons, String.intercalate_cons_append,
      String.intercalate_cons_cons]

/-- Kept statements, and new ones behind them, continue what is printed. -/
theorem joinAfter_kept (h : Original source tree) {left : Node} {rest fresh : List Node}
    (hkept : (left :: rest).Sublist tree.statements) (hfresh : ∀ node ∈ fresh, node.Fresh)
    (printed : String) :
    joinAfter source true printed left (withTexts source tree (rest ++ fresh)) =
      "\n".intercalate
        ((printed ++ keptTextAfter source tree left rest) :: fresh.map Node.toCode) := by
  induction rest generalizing left printed with
  | nil =>
    rw [List.nil_append, keptTextAfter, String.append_empty]
    exact joinAfter_fresh hfresh printed left
  | cons right rest ih =>
    have hpair : [left, right].Sublist tree.statements :=
      (((List.nil_sublist rest).cons_cons right).cons_cons left).trans hkept
    have hright : right ∈ tree.statements := hkept.subset (by simp)
    rw [withTexts, List.cons_append, List.map_cons, joinAfter, gap_of_kept h hpair,
      nodeText_of_statement h hright]
    rw [← withTexts, ih (List.sublist_of_cons_sublist hkept), keptTextAfter]
    simp only [String.append_assoc]

/-- Statements that are kept and fresh ones after them are joined as the text of both. -/
theorem join_kept_append_fresh (h : Original source tree) {kept fresh : List Node}
    (hkept : kept.Sublist tree.statements) (hfresh : ∀ node ∈ fresh, node.Fresh)
    (printed : String) :
    join source true printed (withTexts source tree (kept ++ fresh)) =
      printed ++ statementsText source tree kept fresh := by
  unfold statementsText
  cases kept with
  | nil =>
    cases fresh with
    | nil => exact String.append_empty.symm
    | cons node rest =>
      obtain ⟨hnode, hrest⟩ := List.forall_mem_cons.mp hfresh
      rw [List.nil_append, withTexts, List.map_cons, join, nodeText_of_fresh hnode, ← withTexts,
        joinAfter_fresh hrest, String.intercalate_cons_append]
      rfl
  | cons first rest =>
    have hfirst : first ∈ tree.statements := hkept.subset List.mem_cons_self
    rw [withTexts, List.cons_append, List.map_cons, join, nodeText_of_statement h hfirst,
      ← withTexts, joinAfter_kept h hkept hfresh, String.append_assoc,
      String.intercalate_cons_append]
    rfl

/-- With nothing dropped and nothing new, the statements fill the source. -/
theorem statementsText_all (h : Original source tree) :
    tree.before source ++ statementsText source tree tree.statements [] ++ tree.after source =
      source := by
  have hjoin := join_kept_append_fresh h (List.Sublist.refl tree.statements)
    (List.forall_mem_nil Node.Fresh) (tree.before source)
  rw [← hjoin, List.append_nil]
  rcases statements_cases h with
    ⟨hnil, -, hbefore, hafter⟩ | ⟨first, last, hfirst, hlast, hlined, -, hbefore, hafter⟩
  · rw [hnil, hbefore, hafter, String.append_empty]
    rfl
  · have hplaced : AllPlaced tree.statements := fun node hnode =>
      (h.settled node (Tree.mem_nodes_of_statement hnode)).span_eq
    have htexts : (tree.statements.map fun node => (node.place, nodeText source tree node)) =
        (tree.statements.map Node.place).map fun span => (span, sliceString source span) := by
      rw [List.map_map]
      exact List.map_congr_left fun node hnode => by rw [nodeText_of_statement h hnode]; rfl
    rw [withTexts, join_of_linedUp _ true hplaced hfirst hlast hlined, htexts,
      spliceTo_self hlined.inOrder, hbefore, hafter, source_eq_of_lined hlined]

/-- Statements that are all kept in place are those of the source, with no new one among them. -/
theorem eq_of_fragments_kept {kept fresh : List Node} (hkept : kept.Sublist tree.statements)
    (hfresh : ∀ node ∈ fresh, node.Fresh)
    (h : fragments (.ofTree source tree) (kept ++ fresh) =
      tree.statements.map fun base => .kept base.place) :
    kept = tree.statements ∧ fresh = [] := by
  have hnone : fresh = [] := by
    apply List.eq_nil_iff_forall_not_mem.mpr
    intro node hnode
    have hnotAll := all_isKept_eq_false (List.mem_append_right kept hnode)
      (isKept_of_fresh source tree (hfresh node hnode))
    rw [h] at hnotAll
    simp [Fragment.isKept] at hnotAll
  refine ⟨hkept.eq_of_length ?_, hnone⟩
  have hlength := congrArg List.length h
  rwa [fragments_eq_map, List.length_map, List.length_map, hnone, List.append_nil] at hlength

end original

end Layout

section printing

variable {source : String} {root : Concrete} {parsed : Parsed}

/-- Some of the statements of a file with new ones behind them print as what is kept of the source
and the code of the new ones, between the texts around the original statements. -/
theorem Parsed.print_kept_append_fresh (hread : root.read source = .ok parsed)
    (hfits : root.WellFormed source) {kept fresh : List Node}
    (hkept : kept.Sublist parsed.tree.statements) (hfresh : ∀ node ∈ fresh, node.Fresh) :
    parsed.print ⟨kept ++ fresh⟩ =
      parsed.tree.before source ++ Layout.statementsText source parsed.tree kept fresh ++
        parsed.tree.after source := by
  have horiginal := Concrete.original_of_read hread hfits
  rw [Parsed.print_eq hread]
  rcases Layout.print_cases horiginal ⟨kept ++ fresh⟩ with ⟨hfragments, hprint⟩ | hprint
  · obtain ⟨rfl, rfl⟩ := Layout.eq_of_fragments_kept hkept hfresh hfragments
    rw [hprint, Layout.statementsText_all horiginal]
  · rw [hprint, Layout.join_kept_append_fresh horiginal hkept hfresh]

end printing

/-- The source of `calls`. -/
def callsSource : String :=
  "<?php\n\na();\nb();\n c();\n"

/-- The concrete tree of a source with three calls, and with a blank statement before them. -/
def calls : Concrete :=
  { kind := "program", span := ⟨0, 23⟩
    children :=
      [{ kind := "php_tag", span := ⟨0, 5⟩ },
       { kind := "text", span := ⟨6, 7⟩ },
       { kind := "expression_statement", span := ⟨7, 11⟩ },
       { kind := "expression_statement", span := ⟨12, 16⟩ },
       { kind := "expression_statement", span := ⟨18, 22⟩ }] }

/-- What is read from the source with the calls. -/
def callsParsed : Parsed :=
  ⟨⟨(Concrete.toNodes callsSource 0 calls.children).1⟩,
    ⟨callsSource, Concrete.tokensList calls.children⟩⟩

/-- The statements of the source with the calls, without the blank one and without the call in the
middle. -/
def fewerCalls : List Node :=
  (callsParsed.tree.statements.eraseIdx 3).eraseIdx 1

/-- The source stays where only blanks are lost with a dropped statement. Elsewhere, statements are
on lines of their own, and so are the new ones. -/
theorem Parsed.print_kept_append_fresh_fewerCalls :
    calls.read callsSource = .ok callsParsed ∧ calls.WellFormed callsSource ∧
      fewerCalls.Sublist callsParsed.tree.statements ∧
      callsParsed.print ⟨fewerCalls ++ [.leaf "comment" "// d", .leaf "comment" "// e"]⟩ =
        "<?php\n\na();\nc();\n// d\n// e\n" := by
  have hread : calls.read callsSource = .ok callsParsed := rfl
  have hfits : calls.WellFormed callsSource := by decide
  have hkept : fewerCalls.Sublist callsParsed.tree.statements :=
    (List.eraseIdx_sublist _ 1).trans (List.eraseIdx_sublist _ 3)
  have hfresh : ∀ node ∈ [Node.leaf "comment" "// d", Node.leaf "comment" "// e"], node.Fresh := by
    decide
  refine ⟨hread, hfits, hkept, ?_⟩
  rw [print_kept_append_fresh hread hfits hkept hfresh]
  decide

end Retouch
