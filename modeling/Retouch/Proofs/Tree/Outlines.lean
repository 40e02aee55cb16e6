import Retouch.Proofs.Text.Lines
import Retouch.Proofs.Tree.Editing
import Retouch.Tree.Outline

/-!
# An outline has one line for each node

The text of a leaf is quoted in an outline, and it may be any text at all. What keeps the outline
readable is that the quoted form never breaks a line.

* **Labels** (`newline_not_mem_outlineLabel`, `exists_outlineLabel_eq`). If kinds and roles are
  names, as `Node.Named` says, then the label of a node has no newline in it and does not begin with
  a blank.
* **Lines** (`cutLines_outline`). So an outline that is cut at its newlines gives the lines of the
  nodes in document order, with nothing left over, and the blanks in front of a line tell the level
  of its node (`indent_outlineLine`).
* **Shape** (`paths_eq_of_pathLengths`). The levels of the nodes in document order determine the
  tree up to what its nodes say: what is deeper after a node, up to the next node that is not, are
  the nodes below it.
-/

namespace Retouch

namespace Text

/-! ### Quoted text stays on its line -/

/-- A hexadecimal number is on one line. -/
theorem newline_not_mem_hex (n : Nat) : '\n' ∉ hex n := by
  have hdigit : ∀ d < 16, '\n' ≠ Nat.digitChar d := by decide
  induction n using Nat.strongRecOn with
  | ind n ih =>
    by_cases hsmall : n < 16
    · rw [hex, Nat.toDigits_of_lt_base hsmall, List.mem_singleton]
      exact hdigit n hsmall
    · rw [hex, Nat.toDigits_of_base_le (by decide) (by omega), List.mem_append,
        List.mem_singleton, not_or]
      exact ⟨ih (n / 16) (by omega), hdigit (n % 16) (by omega)⟩

/-- A character is listed on one line. -/
theorem newline_not_mem_listingChar (c : Char) : '\n' ∉ listingChar c := by
  unfold listingChar
  split_ifs with _ _ _ hnewline
  iterate 6 decide
  · rw [List.mem_singleton]
    exact Ne.symm hnewline
  · simp [newline_not_mem_hex]

/-- The quoted form of a text has no newline in it, whatever the text is. -/
theorem newline_not_mem_listing (text : String) : '\n' ∉ (listing text).toList := by
  rw [listing, String.toList_ofList, List.mem_cons, List.mem_append, List.mem_singleton,
    List.mem_flatMap]
  rintro (hquote | ⟨c, -, hc⟩ | hquote)
  · exact absurd hquote (by decide)
  · exact newline_not_mem_listingChar c hc
  · exact absurd hquote (by decide)

/-- A decimal number is on one line. -/
theorem newline_not_mem_repr (n : Nat) : '\n' ∉ n.repr.toList := by
  rw [Nat.toList_repr]
  intro hmem
  exact absurd (Nat.isDigit_of_mem_toDigits (by decide) (by decide) hmem) (by decide)

/-- Lines that are put together with a newline after each are found again. -/
theorem cutLines_flatMap {lines : List (List Char)} (h : ∀ line ∈ lines, '\n' ∉ line) :
    cutLines (lines.flatMap (· ++ ['\n'])) = (lines, []) := by
  induction lines with
  | nil => rfl
  | cons line rest ih =>
    have hrest := ih fun other hother => h other (List.mem_cons_of_mem _ hother)
    rw [List.flatMap_cons, List.append_assoc, List.singleton_append,
      cutLines_newline (h line List.mem_cons_self), hrest]

/-- Number of blanks in front of a line. -/
def indent (line : List Char) : Nat :=
  (line.takeWhile (· = ' ')).length

/-- A name can stand at the start of a label: it is not empty, is on one line, and does not begin
with a blank. -/
structure IsName (name : String) : Prop where
  ne_empty : name ≠ ""
  unbroken : '\n' ∉ name.toList
  first : name.toList.head? ≠ some ' '

instance (name : String) : Decidable (IsName name) :=
  decidable_of_iff (name ≠ "" ∧ '\n' ∉ name.toList ∧ name.toList.head? ≠ some ' ')
    ⟨fun h => ⟨h.1, h.2.1, h.2.2⟩, fun h => ⟨h.ne_empty, h.unbroken, h.first⟩⟩

/-- A name has a first character, which is not a blank. -/
theorem IsName.exists_toList_eq {name : String} (h : IsName name) :
    ∃ c rest, name.toList = c :: rest ∧ c ≠ ' ' := by
  cases hchars : name.toList with
  | nil => exact absurd (String.toList_eq_nil_iff.mp hchars) h.ne_empty
  | cons c rest =>
    refine ⟨c, rest, rfl, ?_⟩
    rintro rfl
    exact h.first (by rw [hchars]; rfl)

end Text

namespace Node

open Text

/-! ### Labels -/

/-- The kind of the node is a name, and so is its role if it has one. -/
structure Named (node : Node) : Prop where
  kind : IsName node.kind
  field : ∀ role ∈ node.field, IsName role

instance (node : Node) : Decidable node.Named :=
  decidable_of_iff (IsName node.kind ∧ ∀ role ∈ node.field, IsName role)
    ⟨fun h => ⟨h.1, h.2⟩, fun h => ⟨h.kind, h.field⟩⟩

/-- The end of a label: the place of the node, or that it is new. -/
def placeText (node : Node) : String :=
  match node.span with
  | some span => s!" [{span.start}..{span.stop}]"
  | none => " (new)"

/-- A label has the role, the kind, the text and the place of the node, in this order. -/
theorem toList_outlineLabel (node : Node) :
    node.outlineLabel.toList =
      ((node.field.map (· ++ ": ")).getD "").toList ++ node.kind.toList ++
        ((node.text.map fun text => " " ++ listing text).getD "").toList ++
        node.placeText.toList := by
  rw [← String.toList_append, ← String.toList_append, ← String.toList_append]
  rfl

/-- The end of a label is on one line. -/
theorem newline_not_mem_placeText (node : Node) : '\n' ∉ node.placeText.toList := by
  rw [placeText]
  cases node.span with
  | none => decide
  | some span =>
    show '\n' ∉ (" [" ++ span.start.repr ++ ".." ++ span.stop.repr ++ "]").toList
    simp only [String.toList_append, List.mem_append, not_or]
    exact ⟨⟨⟨⟨by decide, newline_not_mem_repr _⟩, by decide⟩, newline_not_mem_repr _⟩, by decide⟩

/-- The label of a node whose kind and role are names is on one line. -/
theorem newline_not_mem_outlineLabel {node : Node} (h : node.Named) :
    '\n' ∉ node.outlineLabel.toList := by
  simp only [toList_outlineLabel, List.mem_append, not_or]
  refine ⟨⟨⟨?_, h.kind.unbroken⟩, ?_⟩, newline_not_mem_placeText node⟩
  · cases hfield : node.field with
    | none => exact List.not_mem_nil
    | some role =>
      show '\n' ∉ (role ++ ": ").toList
      rw [String.toList_append, List.mem_append, not_or]
      exact ⟨(h.field role hfield).unbroken, by decide⟩
  · cases node.text with
    | none => exact List.not_mem_nil
    | some text =>
      show '\n' ∉ (" " ++ listing text).toList
      rw [String.toList_append, List.mem_append, not_or]
      exact ⟨by decide, newline_not_mem_listing text⟩

/-- A label begins with a character of the role or of the kind, which is not a blank. -/
theorem exists_outlineLabel_eq {node : Node} (h : node.Named) :
    ∃ c rest, node.outlineLabel.toList = c :: rest ∧ c ≠ ' ' := by
  rw [toList_outlineLabel]
  cases hfield : node.field with
  | none =>
    obtain ⟨c, rest, hkind, hc⟩ := h.kind.exists_toList_eq
    exact ⟨c, _, by rw [hkind]; rfl, hc⟩
  | some role =>
    obtain ⟨c, rest, hrole, hc⟩ := (h.field role hfield).exists_toList_eq
    have hfront : ((Option.map (· ++ ": ") (some role)).getD "").toList =
        c :: (rest ++ ": ".toList) := by
      show (role ++ ": ").toList = _
      rw [String.toList_append, hrole, List.cons_append]
    exact ⟨c, _, by rw [hfront]; rfl, hc⟩

/-! ### Lines -/

/-- A line of an outline is the label behind two blanks for each level. -/
theorem toList_outlineLine (level : Nat) (node : Node) :
    (node.outlineLine level).toList =
      List.replicate (2 * level) ' ' ++ node.outlineLabel.toList := by
  rw [outlineLine, String.toList_append, String.toList_ofList]

/-- The line of a node whose kind and role are names has no newline in it. -/
theorem newline_not_mem_outlineLine {node : Node} (h : node.Named) (level : Nat) :
    '\n' ∉ (node.outlineLine level).toList := by
  rw [toList_outlineLine, List.mem_append, not_or]
  refine ⟨fun hblank => ?_, newline_not_mem_outlineLabel h⟩
  exact absurd (List.eq_of_mem_replicate hblank) (by decide)

/-- In front of a line are two blanks for each level, and no more. -/
theorem indent_outlineLine {node : Node} (h : node.Named) (level : Nat) :
    indent (node.outlineLine level).toList = 2 * level := by
  obtain ⟨c, rest, hlabel, hc⟩ := exists_outlineLabel_eq h
  have hblanks : ∀ blank ∈ List.replicate (2 * level) ' ', decide (blank = ' ') = true :=
    fun blank hblank => decide_eq_true (List.eq_of_mem_replicate hblank)
  rw [indent, toList_outlineLine, hlabel, List.takeWhile_append_of_pos hblanks,
    List.takeWhile_cons_of_neg (by simpa using hc), List.append_nil, List.length_replicate]

/-- The level of the node at the end of an index path, which is 0 for a statement. -/
def levelOf (path : List Nat) : Nat :=
  path.length - 1

/-- A node in a list of subtrees has a path that is not empty. -/
theorem ne_nil_of_mem_locatedList {index : Nat} {nodes : List Node} {place : List Nat × Node}
    (h : place ∈ locatedList index nodes) : place.1 ≠ [] := by
  induction nodes generalizing index with
  | nil => exact absurd h List.not_mem_nil
  | cons node rest ih =>
    rw [locatedList, List.mem_append, List.mem_map] at h
    rcases h with ⟨inner, -, rfl⟩ | hrest
    · exact List.cons_ne_nil _ _
    · exact ih hrest

/-- The line of a node comes before those of the nodes below it, which are one level deeper. -/
theorem outlineLines_eq (level : Nat) (node : Node) :
    node.outlineLines level =
      node.outlineLine level :: outlineLinesList (level + 1) node.children := by
  cases node
  rw [outlineLines]

/-- If the lines of each subtree are those of its located nodes, so are the lines of all
subtrees. -/
theorem outlineLinesList_of_outlineLines {nodes : List Node} {level : Nat}
    (h : ∀ node ∈ nodes, node.outlineLines level =
      node.located.map fun place => place.2.outlineLine (level + place.1.length)) (index : Nat) :
    outlineLinesList level nodes =
      (locatedList index nodes).map fun place =>
        place.2.outlineLine (level + levelOf place.1) := by
  induction nodes generalizing index with
  | nil => rfl
  | cons node rest ih =>
    rw [outlineLinesList, locatedList, List.map_append, List.map_map, h node List.mem_cons_self,
      ih (fun other hother => h other (List.mem_cons_of_mem _ hother)) (index + 1)]
    rfl

/-- The lines of a node are those of the nodes at and below it, each by the length of its path. -/
theorem outlineLines_eq_map (level : Nat) (node : Node) :
    node.outlineLines level =
      node.located.map fun place => place.2.outlineLine (level + place.1.length) := by
  induction node using childInduction generalizing level with
  | step node ih =>
    rw [outlineLines_eq, located_eq, List.map_cons,
      outlineLinesList_of_outlineLines (fun child hchild => ih child hchild (level + 1)) 0]
    refine congrArg (List.cons _) (List.map_congr_left fun place hplace => ?_)
    have hpath := List.length_pos_iff.mpr (ne_nil_of_mem_locatedList hplace)
    rw [levelOf, show level + 1 + (place.1.length - 1) = level + place.1.length by omega]

/-- The lines of an outline are those of the nodes in document order, each at its level. -/
theorem outlineLinesList_eq_map (index level : Nat) (nodes : List Node) :
    outlineLinesList level nodes =
      (locatedList index nodes).map fun place =>
        place.2.outlineLine (level + levelOf place.1) :=
  outlineLinesList_of_outlineLines (fun node _ => outlineLines_eq_map level node) index

/-! ### Levels and shape -/

/-- The lengths of the index paths in document order. -/
def pathLengths (nodes : List Node) : List Nat :=
  (locatedList 0 nodes).map fun place => place.1.length

/-- The lengths of paths do not depend on the number of the first subtree. -/
theorem map_length_locatedList (index index' : Nat) (nodes : List Node) :
    ((locatedList index nodes).map fun place => place.1.length) =
      (locatedList index' nodes).map fun place => place.1.length := by
  induction nodes generalizing index index' with
  | nil => rfl
  | cons node rest ih =>
    simp only [locatedList, List.map_append, List.map_map, Function.comp_def, List.length_cons,
      ih (index + 1) (index' + 1)]

/-- A subtree has a path of length one, those of its children one longer, and then come its
neighbours. -/
theorem pathLengths_cons (node : Node) (rest : List Node) :
    pathLengths (node :: rest) =
      1 :: ((pathLengths node.children).map (· + 1) ++ pathLengths rest) := by
  rw [pathLengths, locatedList, located_eq, List.map_append, map_length_locatedList (0 + 1) 0 rest]
  simp only [List.map_cons, List.map_map, List.cons_append, pathLengths]
  rfl

/-- Paths to the nodes below a subtree are longer than one. -/
theorem one_lt_of_mem_below {nodes : List Node} {length : Nat}
    (h : length ∈ (pathLengths nodes).map (· + 1)) : decide (1 < length) = true := by
  obtain ⟨above, habove, rfl⟩ := List.mem_map.mp h
  obtain ⟨place, hplace, rfl⟩ := List.mem_map.mp habove
  have hpath := List.length_pos_iff.mpr (ne_nil_of_mem_locatedList hplace)
  rw [decide_eq_true_eq]
  omega

/-- What is below a node ends where the next neighbour begins. -/
theorem takeWhile_pathLengths (below rest : List Node) :
    ((pathLengths below).map (· + 1) ++ pathLengths rest).takeWhile (1 < ·) =
      (pathLengths below).map (· + 1) := by
  rw [List.takeWhile_append_of_pos fun _ => one_lt_of_mem_below]
  cases rest with
  | nil => exact List.append_nil _
  | cons node rest =>
    rw [pathLengths_cons, List.takeWhile_cons_of_neg (by decide), List.append_nil]

/-- The next path of length one ends a subtree, so the lengths tell where its neighbours start. -/
theorem pathLengths_cons_inj {node other : Node} {rest more : List Node}
    (h : pathLengths (node :: rest) = pathLengths (other :: more)) :
    pathLengths node.children = pathLengths other.children ∧
      pathLengths rest = pathLengths more := by
  rw [pathLengths_cons, pathLengths_cons, List.cons.injEq] at h
  have hbelow := congrArg (List.takeWhile (1 < ·)) h.2
  rw [takeWhile_pathLengths, takeWhile_pathLengths] at hbelow
  have hafter := h.2
  rw [hbelow, List.append_cancel_left_eq] at hafter
  exact ⟨List.map_injective_iff.mpr (fun _ _ => Nat.succ.inj) hbelow, hafter⟩

/-- The paths of subtrees: the first one, those below it, and then those of its neighbours. -/
theorem map_fst_locatedList_cons (index : Nat) (node : Node) (rest : List Node) :
    (locatedList index (node :: rest)).map Prod.fst =
      [index] :: (((locatedList 0 node.children).map Prod.fst).map (index :: ·) ++
        (locatedList (index + 1) rest).map Prod.fst) := by
  rw [locatedList, located_eq, List.map_append]
  simp only [List.map_cons, List.map_map, List.cons_append]
  rfl

/-- The lengths of the paths below the node determine these paths. -/
def ShapedByLengths (node : Node) : Prop :=
  ∀ others, pathLengths node.children = pathLengths others →
    (locatedList 0 node.children).map Prod.fst = (locatedList 0 others).map Prod.fst

/-- If the lengths determine the paths below each subtree, they determine the paths of all of
them. -/
theorem paths_eq_of_shapedByLengths {nodes others : List Node}
    (hshaped : ∀ node ∈ nodes, node.ShapedByLengths) (h : pathLengths nodes = pathLengths others)
    (index : Nat) :
    (locatedList index nodes).map Prod.fst = (locatedList index others).map Prod.fst := by
  induction nodes generalizing others index with
  | nil =>
    cases others with
    | nil => rfl
    | cons other more =>
      rw [pathLengths_cons] at h
      cases h
  | cons node rest ih =>
    cases others with
    | nil =>
      rw [pathLengths_cons] at h
      cases h
    | cons other more =>
      obtain ⟨hbelow, hafter⟩ := pathLengths_cons_inj h
      rw [map_fst_locatedList_cons, map_fst_locatedList_cons,
        hshaped node List.mem_cons_self other.children hbelow,
        ih (fun later hlater => hshaped later (List.mem_cons_of_mem _ hlater)) hafter (index + 1)]

/-- The lengths of the paths below a node determine these paths. -/
theorem shapedByLengths (node : Node) : node.ShapedByLengths := by
  induction node using childInduction with
  | step node ih => exact fun others h => paths_eq_of_shapedByLengths ih h 0

/-- The lengths of all index paths in document order determine the paths. -/
theorem paths_eq_of_pathLengths {nodes others : List Node}
    (h : pathLengths nodes = pathLengths others) :
    (locatedList 0 nodes).map Prod.fst = (locatedList 0 others).map Prod.fst :=
  paths_eq_of_shapedByLengths (fun node _ => shapedByLengths node) h 0

end Node

namespace Tree

open Text

/-- The levels of the nodes in document order. -/
def levels (tree : Tree) : List Nat :=
  tree.located.map fun place => Node.levelOf place.1

/-- The located nodes of a tree are its nodes. -/
theorem map_snd_located (tree : Tree) : tree.located.map Prod.snd = tree.nodes :=
  Node.map_snd_locatedList 0 tree.statements

/-- Located nodes are named if all nodes are. -/
theorem named_of_mem_located {tree : Tree} (h : ∀ node ∈ tree.nodes, node.Named)
    {place : List Nat × Node} (hplace : place ∈ tree.located) : place.2.Named := by
  apply h
  rw [← map_snd_located]
  exact List.mem_map_of_mem hplace

/-- Cut at its newlines, an outline gives the lines of the nodes, and nothing is left over. -/
theorem cutLines_outline {tree : Tree} (h : ∀ node ∈ tree.nodes, node.Named) :
    cutLines tree.outline.toList =
      (tree.located.map fun place =>
        (place.2.outlineLine (Node.levelOf place.1)).toList, []) := by
  have hjoined : tree.outline.toList =
      (tree.located.map fun place =>
        (place.2.outlineLine (Node.levelOf place.1)).toList).flatMap (· ++ ['\n']) := by
    rw [outline, String.toList_join, Node.outlineLinesList_eq_map 0 0, List.flatMap_map,
      List.flatMap_map, List.flatMap_map]
    simp only [String.toList_append, Nat.zero_add]
    rfl
  rw [hjoined]
  apply cutLines_flatMap
  intro line hline
  obtain ⟨place, hplace, rfl⟩ := List.mem_map.mp hline
  exact Node.newline_not_mem_outlineLine (named_of_mem_located h hplace) _

/-- The levels of the nodes can be read off an outline. -/
theorem levels_eq_map_indent {tree : Tree} (h : ∀ node ∈ tree.nodes, node.Named) :
    tree.levels = (cutLines tree.outline.toList).1.map fun line => indent line / 2 := by
  rw [cutLines_outline h, List.map_map]
  refine List.map_congr_left fun place hplace => ?_
  rw [Function.comp_apply, Node.indent_outlineLine (named_of_mem_located h hplace),
    Nat.mul_div_cancel_left _ (by decide)]

/-- The paths are one longer than the levels. -/
theorem pathLengths_eq_map_levels (tree : Tree) :
    Node.pathLengths tree.statements = tree.levels.map (· + 1) := by
  rw [Node.pathLengths, levels, List.map_map]
  refine List.map_congr_left fun place hplace => ?_
  have hpath := List.length_pos_iff.mpr (Node.ne_nil_of_mem_locatedList hplace)
  rw [Function.comp_apply, Node.levelOf]
  omega

/-- If kinds and roles are names, an outline has one line for each node, in document order and
whatever the texts are: cut at its newlines it gives the lines of the nodes, and nothing follows the
last newline. The line of a node has two blanks for each level in front and no more. Two trees with
the same outline therefore have the same number of nodes on the same levels in the same order, and
with that the same index paths. -/
theorem outline_line_per_node {tree : Tree} (h : ∀ node ∈ tree.nodes, node.Named) :
    tree.located.map Prod.snd = tree.nodes ∧
      cutLines tree.outline.toList =
        (tree.located.map fun place =>
          (place.2.outlineLine (Node.levelOf place.1)).toList, []) ∧
      (∀ place ∈ tree.located,
        indent (place.2.outlineLine (Node.levelOf place.1)).toList =
          2 * Node.levelOf place.1) ∧
      ∀ other : Tree, (∀ node ∈ other.nodes, node.Named) → other.outline = tree.outline →
        other.nodes.length = tree.nodes.length ∧ other.levels = tree.levels ∧
          other.located.map Prod.fst = tree.located.map Prod.fst := by
  refine ⟨map_snd_located tree, cutLines_outline h, ?_, ?_⟩
  · exact fun place hplace => Node.indent_outlineLine (named_of_mem_located h hplace) _
  · intro other hother hsame
    have hlevels : other.levels = tree.levels := by
      rw [levels_eq_map_indent h, levels_eq_map_indent hother, hsame]
    have hpaths : other.located.map Prod.fst = tree.located.map Prod.fst := by
      apply Node.paths_eq_of_pathLengths
      rw [pathLengths_eq_map_levels, pathLengths_eq_map_levels, hlevels]
    refine ⟨?_, hlevels, hpaths⟩
    have hlength := congrArg List.length hlevels
    rwa [levels, levels, List.length_map, List.length_map, ← List.length_map Prod.snd,
      ← List.length_map Prod.snd, map_snd_located, map_snd_located] at hlength

/-- A text on three lines, with a quote, a backslash, a control character and an accent to combine;
its second line looks like one of an outline. -/
def unrulyText : String :=
  "\"\n  name \\\x1b\r\n\u0301"

/-- A tree with that text in a leaf that has a role. -/
def unruly : Tree :=
  ⟨[{ kind := "echo_statement", span := some ⟨6, 40⟩
      children :=
        [Node.leaf "echo" "echo", (Node.leaf "string" unrulyText).withField "value"] },
    Node.leaf "comment" ""]⟩

/-- The same without the role, and with a kind that makes up for it in the outline. -/
def unrulyTwin : Tree :=
  ⟨[{ kind := "echo_statement", span := some ⟨6, 40⟩
      children := [Node.leaf "echo" "echo", Node.leaf "value: string" unrulyText] },
    Node.leaf "comment" ""]⟩

/-- The text on three lines stays on one line of the outline, and a tree with the same outline has
the same shape. -/
theorem outline_line_per_node_unruly :
    (∀ node ∈ unruly.nodes, node.Named) ∧ (∀ node ∈ unrulyTwin.nodes, node.Named) ∧
      unrulyTwin.outline = unruly.outline ∧
      (cutLines unruly.outline.toList).1.length = 4 ∧ (cutLines unruly.outline.toList).2 = [] ∧
      unrulyTwin.levels = [0, 1, 1, 0] ∧
      unrulyTwin.located.map Prod.fst = unruly.located.map Prod.fst := by
  have hnamed : ∀ node ∈ unruly.nodes, node.Named := by decide
  have htwin : ∀ node ∈ unrulyTwin.nodes, node.Named := by decide
  have hsame : unrulyTwin.outline = unruly.outline := by rfl
  obtain ⟨-, hlines, -, hshape⟩ := outline_line_per_node hnamed
  obtain ⟨-, hlevels, hpaths⟩ := hshape unrulyTwin htwin hsame
  exact ⟨hnamed, htwin, hsame, by rw [hlines]; rfl, by rw [hlines], hlevels, hpaths⟩

end Tree

end Retouch
