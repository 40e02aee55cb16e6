import Retouch.Proofs.Tree.Editing

/-!
# The searches agree

Nodes of a kind are looked for in several ways: all of them are collected, the first is found, the
index path to the first is found, and the first is changed. Each way is a recursion of its own over
the tree, and a match may stand inside of another one.

* **What is found** is said by the nodes in document order: all nodes of a kind are those that are
  of the kind (`findAllList_eq_filter`), and the first is the first of them. The index path is that
  of the same node (`pathToFirstList?_eq_map_find?`).
* **What is changed** is said place by place (`ChangedAt`): a node that is not at, above or below a
  given place stays as it is, and a node above it keeps all but its children, of which there are as
  many as before. Changing the first node of a kind is such a change (`Swap.changedAt`).
-/

namespace Retouch

namespace Node

variable {kind : String}

/-! ### All nodes of a kind -/

/-- A search for all nodes of a kind takes the node itself if it is of the kind, and those below
it. -/
theorem findAll_eq (kind : String) (node : Node) :
    node.findAll kind =
      if node.kind = kind then node :: findAllList kind node.children
      else findAllList kind node.children := by
  cases node
  rw [findAll]

/-- If all nodes of a kind are found in each subtree, they are found in all subtrees. -/
theorem findAllList_of_findAll {nodes : List Node}
    (h : ∀ node ∈ nodes, node.findAll kind = node.preorder.filter (isKind kind)) :
    findAllList kind nodes = (preorderList nodes).filter (isKind kind) := by
  induction nodes with
  | nil => rfl
  | cons node rest ih =>
    rw [findAllList, preorderList, List.filter_append, h node List.mem_cons_self,
      ih fun other hother => h other (List.mem_cons_of_mem _ hother)]

/-- The search for a kind finds all nodes of the kind, in document order. -/
theorem findAll_eq_filter (kind : String) (node : Node) :
    node.findAll kind = node.preorder.filter (isKind kind) := by
  induction node using childInduction with
  | step node ih =>
    rw [findAll_eq, preorder_eq, List.filter_cons, findAllList_of_findAll ih]
    by_cases hkind : node.kind = kind
    · rw [if_pos hkind, if_pos (by rwa [isKind, decide_eq_true_eq])]
    · rw [if_neg hkind, if_neg (by rwa [isKind, decide_eq_true_eq])]

/-- Collecting the nodes of a kind picks them from the nodes in document order. -/
theorem findAllList_eq_filter (kind : String) (nodes : List Node) :
    findAllList kind nodes = (preorderList nodes).filter (isKind kind) :=
  findAllList_of_findAll fun node _ => findAll_eq_filter kind node

/-! ### The way to the first one -/

/-- The path to the first node of a kind is empty if it is the node itself, and else leads below
it. -/
theorem pathToFirst?_eq (kind : String) (node : Node) :
    node.pathToFirst? kind =
      if node.kind = kind then some [] else pathToFirstList? kind 0 node.children := by
  cases node
  rw [pathToFirst?]

/-- If the path leads to the first place in each subtree, it does in a list of them. -/
theorem pathToFirstList?_of_pathToFirst? {nodes : List Node}
    (h : ∀ node ∈ nodes, node.pathToFirst? kind =
      (node.located.find? fun place => isKind kind place.2).map Prod.fst) (index : Nat) :
    pathToFirstList? kind index nodes =
      ((locatedList index nodes).find? fun place => isKind kind place.2).map Prod.fst := by
  induction nodes generalizing index with
  | nil => rfl
  | cons node rest ih =>
    rw [pathToFirstList?, locatedList, List.find?_append, List.find?_map, Function.comp_def,
      h node List.mem_cons_self]
    cases node.located.find? fun place => isKind kind place.2 with
    | some place => rfl
    | none => exact ih (fun other hother => h other (List.mem_cons_of_mem _ hother)) (index + 1)

/-- The path to the first node of a kind is that of the first place with such a node. -/
theorem pathToFirst?_eq_map_find? (kind : String) (node : Node) :
    node.pathToFirst? kind =
      (node.located.find? fun place => isKind kind place.2).map Prod.fst := by
  induction node using childInduction with
  | step node ih =>
    rw [pathToFirst?_eq, located_eq, List.find?_cons, pathToFirstList?_of_pathToFirst? ih]
    by_cases hkind : node.kind = kind
    · rw [if_pos hkind, isKind, decide_eq_true hkind]
      rfl
    · rw [if_neg hkind, isKind, decide_eq_false hkind]

/-- The search for a path gives the first place with a node of the kind. -/
theorem pathToFirstList?_eq_map_find? (kind : String) (index : Nat) (nodes : List Node) :
    pathToFirstList? kind index nodes =
      ((locatedList index nodes).find? fun place => isKind kind place.2).map Prod.fst :=
  pathToFirstList?_of_pathToFirst? (fun node _ => pathToFirst?_eq_map_find? kind node) index

/-! ### Nodes at index paths -/

/-- A path leads to a subtree by its first index, and then on among the children. -/
theorem atPath?_cons {path : List Nat} (h : path ≠ []) (index : Nat) (nodes : List Node) :
    atPath? (index :: path) nodes =
      nodes[index]?.bind fun node => atPath? path node.children := by
  obtain ⟨first, rest, rfl⟩ := List.exists_cons_of_ne_nil h
  rfl

/-- Only one node of a list matters for a path. -/
theorem atPath?_congr {index : Nat} {nodes others : List Node} (h : nodes[index]? = others[index]?)
    (path : List Nat) : atPath? (index :: path) nodes = atPath? (index :: path) others := by
  by_cases hpath : path = []
  · rw [hpath, atPath?, atPath?, h]
  · rw [atPath?_cons hpath, atPath?_cons hpath, h]

/-- The way down through a node of a list. -/
theorem atPath?_append_cons {path : List Nat} (h : path ≠ []) (front back : List Node)
    (node : Node) :
    atPath? (front.length :: path) (front ++ node :: back) = atPath? path node.children := by
  rw [atPath?_cons h, List.getElem?_append_right (Nat.le_refl _), Nat.sub_self]
  rfl

/-- The path with the number of neighbours in front of a node leads to it. -/
theorem atPath?_append_singleton (front back : List Node) (node : Node) :
    atPath? [front.length] (front ++ node :: back) = some node := by
  rw [atPath?, List.getElem?_append_right (Nat.le_refl _), Nat.sub_self]
  rfl

/-- A path that leads through another neighbour does not meet the node. -/
theorem atPath?_of_ne_length {front : List Node} {index : Nat} (h : index ≠ front.length)
    (back : List Node) (node other : Node) (path : List Nat) :
    atPath? (index :: path) (front ++ node :: back) =
      atPath? (index :: path) (front ++ other :: back) := by
  apply atPath?_congr
  rcases Nat.lt_or_gt_of_ne h with hbefore | hafter
  · rw [List.getElem?_append_left hbefore, List.getElem?_append_left hbefore]
  · obtain ⟨later, rfl⟩ := Nat.exists_eq_add_of_lt hafter
    rw [List.getElem?_append_right (by omega), List.getElem?_append_right (by omega),
      show front.length + later + 1 - front.length = later + 1 by omega, List.getElem?_cons_succ,
      List.getElem?_cons_succ]

end Node

/-! ### A change in one place -/

/-- The lists of subtrees `nodes` and `edited` differ in the subtree at an index path: `old` stands
there in the one and `new` in the other. Every node that is neither above nor below that place is
the same in both, in the same place. A node above it differs in its children alone, and has as many
of them. -/
structure ChangedAt (old new : Node) (path : List Nat) (nodes edited : List Node) : Prop where
  before : Node.atPath? path nodes = some old
  after : Node.atPath? path edited = some new
  apart : ∀ other, ¬ path <+: other → ¬ other <+: path →
    Node.atPath? other edited = Node.atPath? other nodes
  above : ∀ other, other <+: path → other ≠ path → other ≠ [] →
    ∃ node children, Node.atPath? other nodes = some node ∧
      Node.atPath? other edited = some { node with children } ∧
      children.length = node.children.length
  length_eq : edited.length = nodes.length

namespace Swap

variable {old new : Node} {path : List Nat} {nodes edited : List Node}

/-- A swap can be undone. -/
theorem symm (h : Swap old new path nodes edited) : Swap new old path edited nodes := by
  induction h with
  | here front back => exact .here front back
  | @inside front back node path children _ ih =>
    obtain ⟨kind, field, text, below, origin, span⟩ := node
    exact @Swap.inside new old front back ⟨kind, field, text, children, origin, span⟩ path below ih

/-- A swap leaves as many subtrees as there were. -/
theorem length_eq (h : Swap old new path nodes edited) : edited.length = nodes.length := by
  cases h <;> rw [List.length_append, List.length_append, List.length_cons, List.length_cons]

/-- A swap leaves alone what is neither above nor below its place. -/
theorem atPath?_apart (h : Swap old new path nodes edited) {other : List Nat}
    (hbelow : ¬ path <+: other) (habove : ¬ other <+: path) :
    Node.atPath? other edited = Node.atPath? other nodes := by
  induction h generalizing other with
  | here front back =>
    cases other with
    | nil => exact absurd List.nil_prefix habove
    | cons index tail =>
      apply Node.atPath?_of_ne_length
      rintro rfl
      exact hbelow (List.cons_prefix_cons.mpr ⟨rfl, List.nil_prefix⟩)
  | @inside front back node path children h ih =>
    cases other with
    | nil => exact absurd List.nil_prefix habove
    | cons index tail =>
      by_cases hindex : index = front.length
      · subst hindex
        rw [List.cons_prefix_cons, not_and] at hbelow habove
        have htail : tail ≠ [] := fun hnil => habove rfl (hnil ▸ List.nil_prefix)
        rw [Node.atPath?_append_cons htail, Node.atPath?_append_cons htail]
        exact ih (hbelow rfl) (habove rfl)
      · exact Node.atPath?_of_ne_length hindex back _ _ tail

/-- A node above the place of a swap keeps all but its children. -/
theorem exists_atPath?_above (h : Swap old new path nodes edited) {other : List Nat}
    (habove : other <+: path) (hother : other ≠ path) (hany : other ≠ []) :
    ∃ node children, Node.atPath? other nodes = some node ∧
      Node.atPath? other edited = some { node with children } ∧
      children.length = node.children.length := by
  induction h generalizing other with
  | here front back =>
    obtain ⟨index, tail, rfl⟩ := List.exists_cons_of_ne_nil hany
    obtain ⟨rfl, htail⟩ := List.cons_prefix_cons.mp habove
    rw [List.prefix_nil.mp htail] at hother
    exact absurd rfl hother
  | @inside front back node path children h ih =>
    obtain ⟨index, tail, rfl⟩ := List.exists_cons_of_ne_nil hany
    obtain ⟨rfl, htail⟩ := List.cons_prefix_cons.mp habove
    by_cases hnil : tail = []
    · subst hnil
      refine ⟨node, children, ?_, ?_, h.length_eq⟩
      · exact Node.atPath?_append_singleton front back node
      · exact Node.atPath?_append_singleton front back { node with children }
    · rw [Node.atPath?_append_cons hnil, Node.atPath?_append_cons hnil]
      exact ih htail (fun hsame => hother (by rw [hsame])) hnil

/-- A swap changes nothing but what is at the place and below it. -/
theorem changedAt (h : Swap old new path nodes edited) : ChangedAt old new path nodes edited where
  before := h.atPath?
  after := h.symm.atPath?
  apart _ := h.atPath?_apart
  above _ := h.exists_atPath?_above
  length_eq := h.length_eq

end Swap

/-! ### The searches together -/

/-- What the searches for a kind in a list of subtrees have to do with each other: `all` collects,
`first` finds, and `modified` changes what it finds. -/
structure SearchesAgree (kind : String) (nodes all : List Node) (first : Option Node)
    (modified : (Node → Node) → Option (List Node)) : Prop where
  /-- All nodes of the kind in document order are collected, also one inside of another. -/
  all_eq : all = (Node.preorderList nodes).filter (Node.isKind kind)
  first_eq : first = all.head?
  first_eq_none_iff : first = none ↔ all = []
  modified_eq_none_iff : ∀ change, modified change = none ↔ first = none
  /-- The node that is found is the one at the path that is found, and the one that is changed. -/
  changed : ∀ found, first = some found → ∃ path,
    ((Node.locatedList 0 nodes).find? fun place => Node.isKind kind place.2) = some (path, found) ∧
      Node.pathToFirstList? kind 0 nodes = some path ∧
      ∀ change, ∃ edited, modified change = some edited ∧
        ChangedAt found (change found) path nodes edited

/-- The searches for a kind in a list of subtrees agree. -/
theorem Node.searchesAgree (kind : String) (nodes : List Node) :
    SearchesAgree kind nodes (findAllList kind nodes) (findWhereList? (isKind kind) nodes)
      (fun change => modifyWhereList? (isKind kind) change nodes) where
  all_eq := findAllList_eq_filter kind nodes
  first_eq := by rw [findWhereList?_eq_find?, findAllList_eq_filter, List.head?_filter]
  first_eq_none_iff := by
    rw [findWhereList?_eq_find?, findAllList_eq_filter, ← List.head?_filter, List.head?_eq_none_iff]
  modified_eq_none_iff change := by
    rw [← Option.not_isSome_iff_eq_none,
      isSome_modifyWhereList?_of_modifyWhere? fun node _ => isSome_modifyWhere? node,
      Option.not_isSome_iff_eq_none]
  changed found hfound := by
    rw [findWhereList?_eq_map_find? 0] at hfound
    obtain ⟨⟨path, node⟩, hplace, rfl⟩ := Option.map_eq_some_iff.mp hfound
    refine ⟨path, hplace, ?_, fun change => ?_⟩
    · rw [pathToFirstList?_eq_map_find?, hplace]
      rfl
    · obtain ⟨edited, hedited, hswap⟩ := exists_swap_of_find? change hplace
      exact ⟨edited, hedited, hswap.changedAt⟩

/-- To search a single subtree is to search its node. -/
theorem Node.findWhereList?_singleton (holds : Node → Bool) (node : Node) :
    findWhereList? holds [node] = node.findWhere? holds := by
  rw [findWhereList?, findWhereList?, Option.orElse_eq_orElse, Option.orElse_eq_or, Option.or_none]

/-- To change a single subtree is to change its node. -/
theorem Node.modifyWhereList?_singleton (holds : Node → Bool) (change : Node → Node) (node : Node) :
    modifyWhereList? holds change [node] =
      (node.modifyWhere? holds change).map fun edited => [edited] := by
  rw [modifyWhereList?, modifyWhereList?]
  cases node.modifyWhere? holds change <;> rfl

/-- From a node, which is the first to be looked at, and in a tree, the searches for a kind agree:
all nodes of the kind are collected in document order, the first of them is found, if there is any,
and it is the one that is changed. The change is made in its place: no node outside of it changes,
and all neighbours keep their places. -/
theorem searches_agree (kind : String) :
    (∀ node : Node,
      SearchesAgree kind [node] (node.findAll kind) (node.findFirst? kind)
        fun change => (node.modifyFirst? kind change).map fun edited => [edited]) ∧
    ∀ tree : Tree,
      SearchesAgree kind tree.statements (tree.findAll kind) (tree.findFirst? kind)
        fun change => (tree.modifyFirst? kind change).map Tree.statements := by
  refine ⟨fun node => ?_, fun tree => ?_⟩
  · have hagree := Node.searchesAgree kind [node]
    rw [Node.findAllList, Node.findAllList, List.append_nil, Node.findWhereList?_singleton]
      at hagree
    simp only [Node.modifyWhereList?_singleton] at hagree
    exact hagree
  · have hmodified : (fun change => (tree.modifyFirst? kind change).map Tree.statements) =
        fun change => Node.modifyWhereList? (Node.isKind kind) change tree.statements := by
      funext change
      rw [Tree.modifyFirst?, Tree.modifyWhere?, Option.map_map]
      exact Option.map_id'
    rw [hmodified]
    exact Node.searchesAgree kind tree.statements

/-- Of two functions, one inside of the other, the outer one is changed, and a change that keeps its
children keeps the inner one. -/
example :
    (Tree.mk [Node.leaf "php_tag" "<?php",
        Node.branch "function" [Node.leaf "name" "a", Node.branch "function" []]]).modifyFirst?
      "function" (fun node => node.withField "outer") =
    some (Tree.mk [Node.leaf "php_tag" "<?php",
        (Node.branch "function"
          [Node.leaf "name" "a", Node.branch "function" []]).withField "outer"]) := by
  rfl

end Retouch
