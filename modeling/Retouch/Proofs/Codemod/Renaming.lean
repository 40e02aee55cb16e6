import Retouch.Proofs.Actions
import Retouch.Proofs.Layout.Splicing
import Retouch.Proofs.Run.RoundTrip
import Retouch.Proofs.Tree.Editing

/-!
# Renaming a function changes one name

The codemod that renames a function looks for the declaration to rename and changes the name in it.
Which node that is (`target?`) is said over the nodes of the tree in document order, each with its
index path, so it is one place even if the tree holds equal nodes elsewhere.

* **The tree** (`rename_cases`): the name at that place becomes a leaf with the new name, and
  nothing else changes. Without such a place the tree stays as it is, and there is a warning.
* **The text** (`print_of_swap`): in a tree that was read from a source, the nodes have distinct
  identities, so one node that got a new text stands where the source has it and all others are
  untouched. The text is the source with the range of that node replaced.
* **Once more** (`settles_renamed`): the first declaration is told by its kind alone, which does not
  change, so without a name to look for the codemod finds its own new name, and writes it again.
-/

namespace Retouch

open Text Layout

/-! ### The text of a tree with one new text -/

namespace Layout

variable {source : String} {tree : Tree} {new : Node → Option String}

/-- A node in which nothing gets a new text stands for itself. -/
theorem stands_self {node : Node} (h : ∀ below ∈ node.preorder, new below = none) :
    Stands new node node := by
  induction node using Node.childInduction with
  | step node ih =>
    refine .same rfl (Or.inr rfl) (h node node.mem_preorder_self) rfl (List.forall₂_same.mpr ?_)
    intro child hchild
    exact ih child hchild fun below hbelow => h below (Node.mem_preorder_below hchild hbelow)

/-- A node in which nothing gets a new text has no range to replace. -/
theorem splices_eq_nil {node : Node} (h : ∀ below ∈ node.preorder, new below = none) :
    node.splices new = [] := by
  induction node using Node.childInduction with
  | step node ih =>
    rw [Node.splices_of_none (h node node.mem_preorder_self), List.flatMap_eq_nil_iff]
    intro child hchild
    exact ih child hchild fun below hbelow => h below (Node.mem_preorder_below hchild hbelow)

/-- If one of some neighbours stands for its original with some texts replaced, and the others have
nothing to replace, then the same texts are replaced in all of them together. -/
theorem stands_among {front back : List Node} {node left : Node} {edits : List (Span × String)}
    (hothers : ∀ other ∈ front ++ back, ∀ below ∈ other.preorder, new below = none)
    (hstands : Stands new node left) (hedits : node.splices new = edits) :
    List.Forall₂ (Stands new) (front ++ node :: back) (front ++ left :: back) ∧
      (front ++ node :: back).flatMap (Node.splices new) = edits := by
  have hfront : ∀ other ∈ front, ∀ below ∈ other.preorder, new below = none :=
    fun other hother => hothers other (List.mem_append_left _ hother)
  have hback : ∀ other ∈ back, ∀ below ∈ other.preorder, new below = none :=
    fun other hother => hothers other (List.mem_append_right _ hother)
  constructor
  · refine List.rel_append (List.forall₂_same.mpr fun other hother => ?_)
      (.cons hstands (List.forall₂_same.mpr fun other hother => ?_))
    · exact stands_self (hfront other hother)
    · exact stands_self (hback other hother)
  · have hfront' := List.flatMap_eq_nil_iff.mpr fun other hother =>
      splices_eq_nil (hfront other hother)
    have hback' := List.flatMap_eq_nil_iff.mpr fun other hother =>
      splices_eq_nil (hback other hother)
    rw [List.flatMap_append, List.flatMap_cons, hfront', hback', hedits, List.nil_append,
      List.append_nil]

/-- The new text for one node, told by its identity. -/
def onlyText (old : Node) (text : String) (node : Node) : Option String :=
  if node.origin = old.origin then some text else none

/-- The nodes in a list of subtrees have distinct identities. -/
def Distinct (nodes : List Node) : Prop :=
  ((Node.preorderList nodes).map Node.origin).Nodup

/-- Where origins are distinct, no node below has the origin of the node. -/
theorem Distinct.inside {front back : List Node} {node : Node}
    (h : Distinct (front ++ node :: back)) :
    node.origin ∉ (Node.preorderList node.children).map Node.origin ∧ Distinct node.children := by
  rw [Distinct, Node.preorderList_eq_flatMap, List.flatMap_append, List.flatMap_cons,
    List.map_append, List.map_append] at h
  have hnode := h.of_append_right.of_append_left
  rw [Node.preorder_eq, List.map_cons] at hnode
  exact List.nodup_cons.mp hnode

/-- Next to the subtree that holds a node, no node has its identity. -/
theorem Distinct.onlyText_eq_none {front back : List Node} {node old : Node} (text : String)
    (h : Distinct (front ++ node :: back)) (hold : old ∈ node.preorder) :
    ∀ other ∈ front ++ back, ∀ below ∈ other.preorder, onlyText old text below = none := by
  intro other hother below hbelow
  rw [Distinct, Node.preorderList_eq_flatMap, List.flatMap_append, List.flatMap_cons,
    List.map_append, List.map_append, List.nodup_append, List.nodup_append] at h
  obtain ⟨-, ⟨-, -, hback⟩, hfront⟩ := h
  have hold' := List.mem_map_of_mem (f := Node.origin) hold
  refine if_neg ?_
  rcases List.mem_append.mp hother with hother | hother
  · have hmem := List.mem_flatMap.mpr ⟨other, hother, hbelow⟩
    exact hfront _ (List.mem_map_of_mem hmem) _ (List.mem_append_left _ hold')
  · have hmem := List.mem_flatMap.mpr ⟨other, hother, hbelow⟩
    exact (hback _ hold' _ (List.mem_map_of_mem hmem)).symm

/-- A list of subtrees in which one node got a new text stands for the list, with that text in the
place of that node and no other. -/
theorem stands_of_swap {old : Node} {text : String} {path : List Nat} {nodes edited : List Node}
    (h : Swap old (old.setText text) path nodes edited) (hdistinct : Distinct nodes) :
    List.Forall₂ (Stands (onlyText old text)) nodes edited ∧
      nodes.flatMap (Node.splices (onlyText old text)) = [(old.place, text)] := by
  induction h with
  | here front back =>
    have hnew : onlyText old text old = some text := if_pos rfl
    exact stands_among (hdistinct.onlyText_eq_none text old.mem_preorder_self)
      (.reworded rfl (Or.inr rfl) hnew rfl) (Node.splices_of_some hnew)
  | @inside front back node path children h ih =>
    obtain ⟨hnode, hchildren⟩ := hdistinct.inside
    obtain ⟨hstands, hedits⟩ := ih hchildren
    have hbelow : old ∈ node.preorder := Node.mem_preorder_of_mem_children h.mem
    have hnew : onlyText old text node = none := by
      refine if_neg fun horigin => hnode ?_
      rw [horigin]
      exact List.mem_map_of_mem h.mem
    exact stands_among (hdistinct.onlyText_eq_none text hbelow)
      (.same rfl (Or.inr rfl) hnew rfl hstands) ((Node.splices_of_none hnew).trans hedits)

/-- One range of a source with a new text in its place. -/
theorem splice_single {span : Span} (h : HasSlice source span) (text : String) :
    ∃ front old back : String, source = front ++ old ++ back ∧
      span = ⟨front.utf8ByteSize, front.utf8ByteSize + old.utf8ByteSize⟩ ∧
      splice source [(span, text)] = front ++ text ++ back := by
  obtain ⟨front, back, hsource, hstart, hstop⟩ := h.split
  generalize sliceString source span = old at hsource hstop
  have hfront : sliceString? source ⟨0, span.start⟩ = some front := by
    refine sliceString?_eq_some_iff.mpr ⟨"", old ++ back, ?_, rfl, ?_⟩
    · rw [String.empty_append, hsource, String.append_assoc]
    · rw [String.utf8ByteSize_empty, Nat.zero_add, hstart]
  have hback : sliceString? source ⟨span.stop, source.utf8ByteSize⟩ = some back := by
    refine sliceString?_eq_some_iff.mpr ⟨front ++ old, "", ?_, ?_, ?_⟩
    · rw [String.append_empty, hsource]
    · rw [String.utf8ByteSize_append, hstop]
    · rw [hsource, ← String.utf8ByteSize_append]
  refine ⟨front, old, back, hsource, by rw [hstop, hstart], ?_⟩
  rw [splice, spliceTo, spliceTo, sliceString_of_eq hfront, sliceString_of_eq hback]

/-- A tree that was read, with a new text for one of its nodes, prints as the source with the range
of that node replaced. -/
theorem print_of_swap (h : Original source tree) {edited : Tree} {old : Node} {text : String}
    {path : List Nat}
    (hswap : Swap old (old.setText text) path tree.statements edited.statements) :
    ∃ front part back : String, source = front ++ part ++ back ∧
      old.span = some ⟨front.utf8ByteSize, front.utf8ByteSize + part.utf8ByteSize⟩ ∧
      print tree source edited = front ++ text ++ back := by
  obtain ⟨hstands, hedits⟩ := stands_of_swap hswap h.distinct
  have hsettled := h.settled old hswap.mem
  obtain ⟨front, part, back, hsource, hspan, hsplice⟩ := splice_single hsettled.hasSlice text
  refine ⟨front, part, back, hsource, by rw [hsettled.span_eq, hspan], ?_⟩
  rw [print_eq_splice_of_stands h hstands, Node.splicesList_eq_flatMap, hedits, hsplice]

end Layout

/-- The warnings of a journal, in order. -/
def Journal.warnings (journal : Journal) : List String :=
  journal.events.filterMap fun
    | .warning message => some message
    | _ => none

namespace RenameFunction

/-! ### The name to change -/

/-- The node declares a function, and if a name is given, then the first child of the node in the
role `name` has this name as its text. -/
def declares (name : Option String) (node : Node) : Bool :=
  node.kind = functionKind &&
    name.all fun wanted =>
      (node.children.find? fun child => child.field = some nameField).any fun child =>
        child.text = some wanted

/-- The first child in the role `name` of the first declaration in document order, with its index
path. -/
def target? (name : Option String) (tree : Tree) : Option (List Nat × Node) := do
  let (path, declaration) ← tree.located.find? fun place => declares name place.2
  let index ← declaration.children.findIdx? fun child => child.field = some nameField
  let child ← declaration.children[index]?
  some (path ++ [index], child)

/-- A node is the target if it declares the function. -/
theorem isTarget_eq_declares (name : Option String) : isTarget name = declares name := by
  funext node
  cases name with
  | none => exact (Bool.and_true _).symm
  | some wanted =>
    refine congrArg (node.kind = functionKind && ·) ?_
    rw [declaredName?, Node.childByField?, Option.all_some]
    cases node.children.find? fun child => child.field = some nameField with
    | none => rfl
    | some child => rfl

/-- The declaration with a new name. -/
def renamed (newName : String) (declaration : Node) : Node :=
  declaration.modifyChildByField nameField fun child => child.setText newName

/-- A declaration without a name has no place for one. -/
theorem findIdx?_of_childByField?_eq_none {node : Node} (h : node.childByField? nameField = none) :
    (node.children.findIdx? fun child => child.field = some nameField) = none := by
  refine List.findIdx?_eq_none_iff.mpr fun child hchild => ?_
  exact Bool.eq_false_iff.mpr (List.find?_eq_none.mp h child hchild)

/-- The place of the name is that of the first child with this role. -/
theorem findIdx?_append_of_role {front : List Node} {child : Node}
    (hfront : ∀ other ∈ front, other.field ≠ some nameField) (hchild : child.field = some nameField)
    (back : List Node) :
    ((front ++ child :: back).findIdx? fun child => child.field = some nameField) =
      some front.length := by
  have hnone : (front.findIdx? fun child => child.field = some nameField) = none :=
    List.findIdx?_eq_none_iff.mpr fun other hother => decide_eq_false (hfront other hother)
  rw [List.findIdx?_append, hnone, List.findIdx?_cons, decide_eq_true hchild]
  simp

/-- A new name in a declaration is a swap of the first child in the role of the name. -/
theorem swap_renamed {declaration target : Node} {front back : List Node} (newName : String)
    (hchildren : declaration.children = front ++ target :: back)
    (hfront : ∀ other ∈ front, other.field ≠ some nameField)
    (hrole : target.field = some nameField) {path : List Nat} {nodes edited : List Node}
    (h : Swap declaration (renamed newName declaration) path nodes edited) :
    Swap target (target.setText newName) (path ++ [front.length]) nodes edited := by
  have hrenamed : renamed newName declaration =
      { declaration with children := front ++ target.setText newName :: back } := by
    rw [renamed, Node.modifyChildByField, hchildren, Node.modifyIn_append hfront hrole]
  rw [hrenamed] at h
  refine h.trans ?_
  rw [hchildren]
  exact .here front back

section rename

variable {σ : Type} {name : Option String} {tree : Tree}

/-- The record of a name that is changed. -/
def renameRecord (target : Node) (newName : String) : Record :=
  ⟨.debug, "renaming function", [("from", target.text.getD ""), ("to", newName)]⟩

/-- If a name is found, it is changed, and a diagnostic reports it. -/
theorem rename_of_found {target : Node}
    (h : (tree.findWhere? (isTarget name)).bind (fun node => node.childByField? nameField) =
      some target) (newName : String) (context : Context) (state : HookState σ) :
    rename name newName context tree state =
      .ok ((tree.modifyWhere? (isTarget name) (renamed newName)).getD tree)
        (state.append [.diagnostic (renameRecord target newName)]) := by
  simp only [rename, h]
  rfl

/-- If no name is found, the tree stays as it is, and a warning reports it. -/
theorem rename_of_not_found
    (h : (tree.findWhere? (isTarget name)).bind (fun node => node.childByField? nameField) = none)
    (newName : String) (context : Context) (state : HookState σ) :
    rename name newName context tree state =
      .ok tree (state.append [.warning (notFoundMessage name context)]) := by
  simp only [rename, h]
  rfl

end rename

/-- What the codemod does: it changes the one name that is to be changed, or else it warns. -/
theorem rename_cases {σ : Type} (name : Option String) (newName : String) (context : Context)
    (tree : Tree) (state : HookState σ) :
    (∃ path target edited, target? name tree = some (path, target) ∧
      Swap target (target.setText newName) path tree.statements edited.statements ∧
      tree.modifyWhere? (isTarget name) (renamed newName) = some edited ∧
      rename name newName context tree state =
        .ok edited (state.append [.diagnostic (renameRecord target newName)])) ∨
    target? name tree = none ∧
      rename name newName context tree state =
        .ok tree (state.append [.warning (notFoundMessage name context)]) := by
  -- the two searches, for the declaration and for its place, agree
  have hsearch : tree.findWhere? (isTarget name) =
      (tree.located.find? fun place => declares name place.2).map Prod.snd := by
    rw [isTarget_eq_declares]
    exact Node.findWhereList?_eq_map_find? 0 tree.statements
  rw [target?]
  cases hplace : tree.located.find? fun place => declares name place.2 with
  | none => exact .inr ⟨rfl, rename_of_not_found (by rw [hsearch, hplace]; rfl) ..⟩
  | some place =>
    obtain ⟨path, declaration⟩ := place
    rw [hplace, Option.map_some] at hsearch
    cases hchild : declaration.childByField? nameField with
    | none =>
      refine .inr ⟨?_, rename_of_not_found (by rw [hsearch, Option.bind_some, hchild]) ..⟩
      simp only [Option.bind_eq_bind, Option.bind_some, findIdx?_of_childByField?_eq_none hchild]
      rfl
    | some target =>
      obtain ⟨front, back, hchildren, hrole, hfront⟩ := Node.childByField?_eq_some hchild
      obtain ⟨edited, hedited, hswap⟩ := Node.exists_swap_of_find? (renamed newName) hplace
      rw [← isTarget_eq_declares] at hedited
      have hmodified : tree.modifyWhere? (isTarget name) (renamed newName) = some ⟨edited⟩ :=
        congrArg (Option.map Tree.mk) hedited
      refine .inl ⟨path ++ [front.length], target, ⟨edited⟩, ?_,
        swap_renamed newName hchildren hfront hrole hswap, hmodified, ?_⟩
      · simp only [Option.bind_eq_bind, Option.bind_some, hchildren,
          findIdx?_append_of_role hfront hrole back]
        simp
      · rw [rename_of_found (by rw [hsearch, Option.bind_some, hchild]), hmodified,
          Option.getD_some]

/-! ### Renaming once more -/

/-- Without a name to look for, a declaration that has its new name is found again and gets no
other. -/
theorem settles_renamed (newName : String) : Node.Settles (isTarget none) (renamed newName) where
  children _ _ := rfl
  kept _ h := h
  again declaration _ := by
    have hkeeps : ∀ child : Node, (child.setText newName).field = child.field := fun _ => rfl
    have hagain : ∀ child : Node,
        (child.setText newName).setText newName = child.setText newName := fun _ => rfl
    exact Node.modifyChildByField_again hkeeps hagain declaration

/-- Renaming the first function once more, to the same name, changes nothing. -/
theorem rename_again {σ : Type} {newName : String} {tree edited : Tree}
    (hedited : tree.modifyWhere? (isTarget none) (renamed newName) = some edited)
    (context : Context) (state : HookState σ) :
    valueOf? (rename none newName context edited state) = some edited := by
  rcases rename_cases none newName context edited state with
    ⟨_, _, again, -, -, hagain, hrun⟩ | ⟨-, hrun⟩
  · rw [Tree.modifyWhere?_again (settles_renamed newName) hedited, Option.some.injEq] at hagain
    rw [hrun, ← hagain]
    rfl
  · rw [hrun]
    rfl

/-! ### The codemod -/

/-- The codemod always gives a tree. If there is a name to change, then this is the tree with only
that node made a leaf with the new name, there is no warning, and a source that the tree was read
from prints with the range of that node replaced. Otherwise tree and text stay as they are and there
is one warning. Without a name to look for, a second run gives what the first one gave. -/
theorem before_renames (name : Option String) (newName : String) (context : Context) (tree : Tree)
    (state : HookState Unit) :
    ∃ edited after, (codemod name newName).before context tree state = .ok edited after ∧
      (∀ path target, target? name tree = some (path, target) →
        tree.atPath? path = some target ∧
        tree.modifyAt? path (fun node => node.setText newName) = some edited ∧
        after.journal.warnings = state.journal.warnings ∧
        ∀ (source : String) (root : Concrete) (parsed : Parsed), root.read source = .ok parsed →
          root.WellFormed source → parsed.tree = tree →
          ∃ front old back : String, source = front ++ old ++ back ∧
            target.span = some ⟨front.utf8ByteSize, front.utf8ByteSize + old.utf8ByteSize⟩ ∧
            parsed.print edited = front ++ newName ++ back) ∧
      (target? name tree = none →
        edited = tree ∧
        after.journal.warnings = state.journal.warnings ++ [notFoundMessage name context] ∧
        ∀ (source : String) (root : Concrete) (parsed : Parsed), root.read source = .ok parsed →
          parsed.tree = tree → parsed.print edited = source) ∧
      (name = none → ∀ context state,
        valueOf? ((codemod name newName).before context edited state) = some edited) := by
  rcases rename_cases name newName context tree state with
    ⟨path, target, edited, htarget, hswap, hmodified, hrun⟩ | ⟨hnone, hrun⟩
  · refine ⟨edited, _, hrun, ?_, fun hnone => ?_, ?_⟩
    · intro path' target' htarget'
      obtain ⟨rfl, rfl⟩ := Prod.mk.inj (Option.some.inj (htarget.symm.trans htarget'))
      refine ⟨hswap.atPath?, Tree.modifyAt?_of_swap hswap, ?_, ?_⟩
      · simp [Journal.warnings, HookState.append, Journal.append]
      · intro source root parsed hread hfits hparsed
        rw [Parsed.print_eq hread]
        subst hparsed
        exact print_of_swap (Concrete.original_of_read hread hfits) hswap
    · rw [htarget] at hnone
      cases hnone
    · rintro rfl context state
      exact rename_again hmodified context state
  · refine ⟨tree, _, hrun, fun path target htarget => ?_, ?_, ?_⟩
    · rw [hnone] at htarget
      cases htarget
    · intro _
      refine ⟨rfl, ?_, ?_⟩
      · simp [Journal.warnings, HookState.append, Journal.append]
      · rintro source root parsed hread rfl
        exact Parsed.print_tree hread
    · intro _ context state
      rcases rename_cases name newName context tree state with ⟨_, _, _, htarget, _⟩ | ⟨-, hrun⟩
      · rw [hnone] at htarget
        cases htarget
      · exact congrArg valueOf? hrun

/-- The source of `nested`. -/
def nestedSource : String :=
  "function a() \x7b function b() \x7b\x7d \x7d"

/-- The concrete tree of a small source with a function inside of another one. -/
def nested : Concrete :=
  { kind := "program", span := ⟨0, 32⟩
    children :=
      [{ kind := "function_definition", span := ⟨0, 32⟩
         children :=
           [{ kind := "function", span := ⟨0, 8⟩ },
            { kind := "name", field := some "name", span := ⟨9, 10⟩ },
            { kind := "formal_parameters", field := some "parameters", span := ⟨10, 12⟩ },
            { kind := "compound_statement", field := some "body", span := ⟨13, 32⟩
              children :=
                [{ kind := "\x7b", span := ⟨13, 14⟩ },
                 { kind := "function_definition", span := ⟨15, 30⟩
                   children :=
                     [{ kind := "function", span := ⟨15, 23⟩ },
                      { kind := "name", field := some "name", span := ⟨24, 25⟩ },
                      { kind := "formal_parameters", field := some "parameters",
                        span := ⟨25, 27⟩ },
                      { kind := "compound_statement", field := some "body", span := ⟨28, 30⟩ }] },
                 { kind := "\x7d", span := ⟨31, 32⟩ }] }] }] }

/-- What is read from the small source. -/
def nestedParsed : Parsed :=
  ⟨⟨(Concrete.toNodes nestedSource 0 nested.children).1⟩,
    ⟨nestedSource, Concrete.tokensList nested.children⟩⟩

/-- The name of the inner function, as it is read. -/
def innerName : Node :=
  { kind := "name", field := some "name", text := some "b", origin := some ⟨8⟩
    span := some ⟨24, 25⟩ }

/-- A function that is declared inside of another one is renamed alone. -/
theorem before_renames_nested :
    nested.read nestedSource = .ok nestedParsed ∧ nested.WellFormed nestedSource ∧
      target? (some "b") nestedParsed.tree = some ([0, 3, 1, 1], innerName) ∧
      ∃ edited after,
        (codemod (some "b") "c").before .empty nestedParsed.tree ⟨(), {}⟩ = .ok edited after ∧
        after.journal.warnings = [] ∧
        nestedParsed.print edited = "function a() \x7b function c() \x7b\x7d \x7d" := by
  have hread : nested.read nestedSource = .ok nestedParsed := rfl
  have hfits : nested.WellFormed nestedSource := by decide
  have htarget : target? (some "b") nestedParsed.tree = some ([0, 3, 1, 1], innerName) := by decide
  obtain ⟨edited, after, hrun, hrenamed, -, -⟩ :=
    before_renames (some "b") "c" .empty nestedParsed.tree ⟨(), {}⟩
  obtain ⟨-, -, hwarnings, hprint⟩ := hrenamed _ _ htarget
  obtain ⟨front, old, back, hsource, hspan, htext⟩ := hprint _ _ _ hread hfits rfl
  refine ⟨hread, hfits, htarget, edited, after, hrun, hwarnings, ?_⟩
  obtain ⟨hstart, hstop⟩ := Span.mk.inj (Option.some.inj hspan)
  have hcut : (front ++ old) ++ back =
      "function a() \x7b function b" ++ "() \x7b\x7d \x7d" := hsource.symm
  obtain ⟨hfront, rfl⟩ := front_unique hcut (by rw [String.utf8ByteSize_append, ← hstop]; decide)
  obtain ⟨rfl, -⟩ : front = "function a() \x7b function " ∧ old = "b" :=
    front_unique hfront (by rw [← hstart]; decide)
  exact htext

end RenameFunction

end Retouch
