import Retouch.Proofs.Tree.Reading
import Retouch.Tree.Address

/-!
# Changing one node of a tree

A tree may hold equal nodes in several places, so what it means that only one of them changes is
said with index paths. `Swap old new path nodes edited` says that `old` stands at the end of the
path, and that `edited` is the same list of subtrees with `new` in that place.

* **In document order** (`Tree.located`): all nodes of a tree, each with its index path.
* **Searching** for a node with a property finds the first one in document order
  (`findWhereList?_eq_find?`).
* **Changing** the first node with a property is a swap at the index path of that node
  (`exists_swap_of_find?`). If a changed node is found again and changes no more, then neither does
  the tree (`Tree.modifyWhere?_again`).
-/

namespace Retouch

namespace Node

/-! ### Nodes with their index paths -/

mutual

/-- The node and all nodes below it, each before its children and with the index path that leads to
it from the node. -/
def located : Node → List (List Nat × Node)
  | node@{ children, .. } => ([], node) :: locatedList 0 children

/-- All nodes of a list of subtrees, with their index paths, when the first subtree is numbered
`index`. -/
def locatedList (index : Nat) : List Node → List (List Nat × Node)
  | [] => []
  | node :: rest =>
    (located node).map (fun place => (index :: place.1, place.2)) ++ locatedList (index + 1) rest

end

/-- A node of the children is below the node. -/
theorem mem_preorder_of_mem_children {node below : Node}
    (h : below ∈ preorderList node.children) : below ∈ node.preorder := by
  rw [preorder_eq]
  exact List.mem_cons_of_mem _ h

/-- What is below a child is below the node. -/
theorem mem_preorder_below {node child below : Node} (hchild : child ∈ node.children)
    (hbelow : below ∈ child.preorder) : below ∈ node.preorder := by
  apply mem_preorder_of_mem_children
  rw [preorderList_eq_flatMap]
  exact List.mem_flatMap.mpr ⟨child, hchild, hbelow⟩

/-- A node is at the end of the empty path, and the nodes below it come after it. -/
theorem located_eq (node : Node) : node.located = ([], node) :: locatedList 0 node.children := by
  cases node
  rfl

/-- If the located nodes of each subtree are its nodes, so are those of all subtrees. -/
theorem map_snd_locatedList_of_located {nodes : List Node}
    (h : ∀ node ∈ nodes, node.located.map Prod.snd = node.preorder) (index : Nat) :
    (locatedList index nodes).map Prod.snd = preorderList nodes := by
  induction nodes generalizing index with
  | nil => rfl
  | cons node rest ih =>
    have hrest := ih (fun other hother => h other (List.mem_cons_of_mem _ hother)) (index + 1)
    rw [locatedList, List.map_append, List.map_map, hrest, preorderList,
      ← h node List.mem_cons_self]
    rfl

/-- The located nodes are the nodes in document order. -/
theorem map_snd_located (node : Node) : node.located.map Prod.snd = node.preorder := by
  induction node using childInduction with
  | step node ih =>
    rw [located_eq, preorder_eq, List.map_cons, map_snd_locatedList_of_located ih 0]

/-- Without their index paths, the nodes are those in document order. -/
theorem map_snd_locatedList (index : Nat) (nodes : List Node) :
    (locatedList index nodes).map Prod.snd = preorderList nodes :=
  map_snd_locatedList_of_located (fun node _ => map_snd_located node) index

end Node

/-- All nodes of a tree in document order, each with its index path. -/
def Tree.located (tree : Tree) : List (List Nat × Node) :=
  Node.locatedList 0 tree.statements

namespace Node

/-! ### Searching -/

section search

variable {holds : Node → Bool} {change : Node → Node}

/-- A search takes the node itself if it has the property, and else goes on below it. -/
theorem findWhere?_eq (holds : Node → Bool) (node : Node) :
    node.findWhere? holds =
      if holds node then some node else findWhereList? holds node.children := by
  cases node
  rw [findWhere?]

/-- A change is made to the node itself if it has the property, and else below it. -/
theorem modifyWhere?_eq (holds : Node → Bool) (change : Node → Node) (node : Node) :
    node.modifyWhere? holds change =
      if holds node then some (change node)
      else (modifyWhereList? holds change node.children).map fun children =>
        { node with children } := by
  cases node
  rw [modifyWhere?]

/-- If the search in each subtree finds its first node with the property, so does the search in all
of them. -/
theorem findWhereList?_of_findWhere? {nodes : List Node}
    (h : ∀ node ∈ nodes, node.findWhere? holds = node.preorder.find? holds) :
    findWhereList? holds nodes = (preorderList nodes).find? holds := by
  induction nodes with
  | nil => rfl
  | cons node rest ih =>
    rw [findWhereList?, preorderList, List.find?_append, h node List.mem_cons_self,
      ih fun other hother => h other (List.mem_cons_of_mem _ hother), Option.orElse_eq_orElse,
      Option.orElse_eq_or]

/-- A search finds the first node with the property in document order. -/
theorem findWhere?_eq_find? (node : Node) : node.findWhere? holds = node.preorder.find? holds := by
  induction node using childInduction with
  | step node ih =>
    rw [findWhere?_eq, preorder_eq, List.find?_cons, findWhereList?_of_findWhere? ih]
    cases holds node <;> rfl

/-- A search in subtrees finds the first node with the property in document order. -/
theorem findWhereList?_eq_find? (nodes : List Node) :
    findWhereList? holds nodes = (preorderList nodes).find? holds :=
  findWhereList?_of_findWhere? fun node _ => findWhere?_eq_find? node

/-- The node that is found is the one at the first place with the property. -/
theorem findWhere?_eq_map_find? (node : Node) :
    node.findWhere? holds = (node.located.find? fun place => holds place.2).map Prod.snd := by
  rw [findWhere?_eq_find?, ← map_snd_located, List.find?_map]
  rfl

/-- The search gives the node of the first place at which the property holds. -/
theorem findWhereList?_eq_map_find? (index : Nat) (nodes : List Node) :
    findWhereList? holds nodes =
      ((locatedList index nodes).find? fun place => holds place.2).map Prod.snd := by
  rw [findWhereList?_eq_find?, ← map_snd_locatedList index, List.find?_map]
  rfl

end search

end Node

/-! ### Swaps -/

/-- The node `old` stands at the end of the index path in a list of subtrees, and with `new` in its
place the list is `edited`. -/
inductive Swap (old new : Node) : (path : List Nat) → (nodes edited : List Node) → Prop
  | here (front back : List Node) :
      Swap old new [front.length] (front ++ old :: back) (front ++ new :: back)
  | inside (front back : List Node) {node : Node} {path : List Nat} {children : List Node}
      (h : Swap old new path node.children children) :
      Swap old new (front.length :: path) (front ++ node :: back)
        (front ++ { node with children } :: back)

namespace Swap

variable {old new : Node} {path : List Nat} {nodes edited : List Node}

/-- A swap among the children of a node is a swap further down. -/
theorem trans {outer : Node} {children : List Node} {tail : List Nat}
    (h : Swap outer { outer with children } path nodes edited)
    (hbelow : Swap old new tail outer.children children) :
    Swap old new (path ++ tail) nodes edited := by
  induction h with
  | here front back => exact .inside front back hbelow
  | inside front back _ ih => exact .inside front back ih

/-- A place in a list of subtrees has a path that is not empty. -/
theorem path_ne_nil (h : Swap old new path nodes edited) : path ≠ [] := by
  cases h <;> exact List.cons_ne_nil _ _

/-- The old node is one of the nodes. -/
theorem mem (h : Swap old new path nodes edited) : old ∈ Node.preorderList nodes := by
  induction h with
  | here front back => exact Node.mem_preorderList (List.mem_append_right _ List.mem_cons_self)
  | @inside front back node path children h ih =>
    rw [Node.preorderList_eq_flatMap, List.mem_flatMap]
    exact ⟨node, List.mem_append_right _ List.mem_cons_self, Node.mem_preorder_of_mem_children ih⟩

/-- The old node is found at the end of the path. -/
theorem atPath? (h : Swap old new path nodes edited) : Node.atPath? path nodes = some old := by
  induction h with
  | here front back => simp [Node.atPath?]
  | @inside front back node path children h ih =>
    obtain ⟨index, tail, rfl⟩ := List.exists_cons_of_ne_nil h.path_ne_nil
    simp [Node.atPath?, ih]

/-- A change below the children of a node is a change below the node, in its place among its
neighbours. -/
theorem modifyListAt?_append {change : List Node → Option (List Node)} (front back : List Node)
    {node : Node} {children : List Node}
    (h : Node.modifyListAt? change path node.children = some children) :
    Node.modifyListAt? change (front.length :: path) (front ++ node :: back) =
      some (front ++ { node with children } :: back) := by
  simp [Node.modifyListAt?, h]

/-- What stands at the end of the path is changed when the list that it stands in is. -/
theorem modifyListAt? {change : Node → Node} (h : Swap old (change old) path nodes edited) :
    ∃ index, path.getLast? = some index ∧
      Node.modifyListAt?
        (fun nodes => do
          let node ← nodes[index]?
          some (nodes.set index (change node))) path.dropLast nodes = some edited := by
  generalize hnew : change old = new at h
  induction h with
  | here front back =>
    refine ⟨front.length, rfl, ?_⟩
    simp [Node.modifyListAt?, hnew]
  | @inside front back node path children h ih =>
    obtain ⟨index, hlast, hchildren⟩ := ih
    obtain ⟨first, tail, rfl⟩ := List.exists_cons_of_ne_nil h.path_ne_nil
    refine ⟨index, by rw [List.getLast?_cons_cons, hlast], ?_⟩
    rw [List.dropLast_cons_of_ne_nil (List.cons_ne_nil _ _)]
    exact modifyListAt?_append front back hchildren

end Swap

/-- To change what is at a path swaps it. -/
theorem Tree.modifyAt?_of_swap {old : Node} {change : Node → Node} {path : List Nat}
    {tree edited : Tree} (h : Swap old (change old) path tree.statements edited.statements) :
    tree.modifyAt? path change = some edited := by
  obtain ⟨index, hlast, hmodified⟩ := h.modifyListAt?
  rw [modifyAt?, hlast]
  exact congrArg (Option.map Tree.mk) hmodified

/-! ### Changing the first node with a property -/

namespace Node

variable {holds : Node → Bool} {change : Node → Node}

/-- If in each subtree something is changed exactly when it is found, so it is in all of them. -/
theorem isSome_modifyWhereList?_of_modifyWhere? {nodes : List Node}
    (h : ∀ node ∈ nodes,
      (modifyWhere? holds change node).isSome = (findWhere? holds node).isSome) :
    (modifyWhereList? holds change nodes).isSome = (findWhereList? holds nodes).isSome := by
  induction nodes with
  | nil => rfl
  | cons node rest ih =>
    have hnode := h node List.mem_cons_self
    have hrest := ih fun other hother => h other (List.mem_cons_of_mem _ hother)
    rw [modifyWhereList?, findWhereList?]
    cases hfound : findWhere? holds node with
    | some found =>
      rw [hfound] at hnode
      obtain ⟨changed, hchanged⟩ := Option.isSome_iff_exists.mp hnode
      rw [hchanged]
      rfl
    | none =>
      rw [hfound, Option.isSome_none, Option.isSome_eq_false_iff, Option.isNone_iff_eq_none]
        at hnode
      rw [hnode]
      exact (Option.isSome_map ..).trans hrest

/-- Something is changed exactly when it is found. -/
theorem isSome_modifyWhere? (node : Node) :
    (modifyWhere? holds change node).isSome = (findWhere? holds node).isSome := by
  induction node using childInduction with
  | step node ih =>
    rw [modifyWhere?_eq, findWhere?_eq]
    cases holds node with
    | true => rfl
    | false => exact (Option.isSome_map ..).trans (isSome_modifyWhereList?_of_modifyWhere? ih)

/-- A node is changed exactly when the search finds one. -/
theorem modifyWhere?_eq_none_iff {node : Node} :
    modifyWhere? holds change node = none ↔ findWhere? holds node = none := by
  rw [← Option.not_isSome_iff_eq_none, isSome_modifyWhere?, Option.not_isSome_iff_eq_none]

/-- What the search for a place says of the node that it starts from: it is the node itself, or the
children have a swap at that place. -/
def SwapsFirst (holds : Node → Bool) (change : Node → Node) (node : Node) : Prop :=
  ∀ path found, (node.located.find? fun place => holds place.2) = some (path, found) →
    holds node = true ∧ path = [] ∧ found = node ∨
      holds node = false ∧ ∃ children, modifyWhereList? holds change node.children = some children ∧
        Swap found (change found) path node.children children

/-- If the first node with the property is swapped in each subtree, it is swapped in a list of them,
at the place where it is in the list. -/
theorem exists_swap_of_swapsFirst {nodes : List Node}
    (h : ∀ node ∈ nodes, SwapsFirst holds change node) (front : List Node) {path : List Nat}
    {found : Node}
    (hfind : ((locatedList front.length nodes).find? fun place => holds place.2) =
      some (path, found)) :
    ∃ edited, modifyWhereList? holds change nodes = some edited ∧
      Swap found (change found) path (front ++ nodes) (front ++ edited) := by
  induction nodes generalizing front with
  | nil => cases hfind
  | cons node rest ih =>
    rw [locatedList, List.find?_append, List.find?_map, Function.comp_def] at hfind
    rw [modifyWhereList?]
    cases hhere : node.located.find? fun place => holds place.2 with
    | some place =>
      rw [hhere] at hfind
      obtain ⟨rfl, rfl⟩ := Prod.mk.inj (Option.some.inj hfind)
      rw [modifyWhere?_eq]
      rcases h node List.mem_cons_self _ _ hhere with
        ⟨hholds, hpath, hfound⟩ | ⟨hholds, children, hchildren, hswap⟩
      · rw [hholds, hpath, hfound]
        exact ⟨_, rfl, .here front rest⟩
      · rw [hholds, hchildren]
        exact ⟨_, rfl, .inside front rest hswap⟩
    | none =>
      -- the first place is among the later neighbours, so this one joins those in front
      have hnode : modifyWhere? holds change node = none := by
        rw [modifyWhere?_eq_none_iff, findWhere?_eq_map_find?, hhere, Option.map_none]
      rw [hhere, Option.map_none, Option.none_or] at hfind
      obtain ⟨edited, hedited, hswap⟩ := ih
        (fun other hother => h other (List.mem_cons_of_mem _ hother)) (front ++ [node])
        (by rw [List.length_append]; exact hfind)
      rw [List.append_assoc, List.append_assoc] at hswap
      rw [hnode, hedited]
      exact ⟨_, rfl, hswap⟩

/-- A change swaps the first node with the property. -/
theorem swapsFirst (holds : Node → Bool) (change : Node → Node) (node : Node) :
    SwapsFirst holds change node := by
  induction node using childInduction with
  | step node ih =>
    intro path found hfind
    rw [located_eq, List.find?_cons] at hfind
    cases hholds : holds node with
    | true =>
      rw [hholds] at hfind
      obtain ⟨rfl, rfl⟩ := Prod.mk.inj (Option.some.inj hfind)
      exact .inl ⟨rfl, rfl, rfl⟩
    | false =>
      rw [hholds] at hfind
      exact .inr ⟨rfl, exists_swap_of_swapsFirst ih [] hfind⟩

/-- Changing the first node with a property is a swap at the first place where it holds. -/
theorem exists_swap_of_find? (change : Node → Node) {nodes : List Node} {path : List Nat}
    {found : Node}
    (h : ((locatedList 0 nodes).find? fun place => holds place.2) = some (path, found)) :
    ∃ edited, modifyWhereList? holds change nodes = some edited ∧
      Swap found (change found) path nodes edited :=
  exists_swap_of_swapsFirst (fun node _ => swapsFirst holds change node) [] h

/-! ### Children in a role -/

section role

variable {role : String}

/-- The child in a role is the first one that has it. -/
theorem childByField?_eq_some {node child : Node} (h : node.childByField? role = some child) :
    ∃ front back, node.children = front ++ child :: back ∧ child.field = some role ∧
      ∀ other ∈ front, other.field ≠ some role := by
  obtain ⟨hrole, front, back, hchildren, hfront⟩ := List.find?_eq_some_iff_append.mp h
  refine ⟨front, back, hchildren, of_decide_eq_true hrole, fun other hother => ?_⟩
  simpa using hfront other hother

/-- The first child in a role is changed, and all others stay. -/
theorem modifyIn_append {front : List Node} {child : Node}
    (hfront : ∀ other ∈ front, other.field ≠ some role) (hchild : child.field = some role)
    (back : List Node) :
    modifyChildByField.modifyIn role change (front ++ child :: back) =
      front ++ change child :: back := by
  induction front with
  | nil => exact if_pos hchild
  | cons first rest ih =>
    rw [List.cons_append, modifyChildByField.modifyIn, if_neg (hfront first List.mem_cons_self),
      ih fun other hother => hfront other (List.mem_cons_of_mem _ hother)]
    rfl

/-- To change the child in a role once more does nothing, if the change keeps the role and settles
the child. -/
theorem modifyIn_modifyIn (hkeeps : ∀ child, (change child).field = child.field)
    (hagain : ∀ child, change (change child) = change child) (children : List Node) :
    modifyChildByField.modifyIn role change (modifyChildByField.modifyIn role change children) =
      modifyChildByField.modifyIn role change children := by
  induction children with
  | nil => rfl
  | cons child rest ih =>
    rw [modifyChildByField.modifyIn]
    by_cases hrole : child.field = some role
    · rw [if_pos hrole, modifyChildByField.modifyIn, if_pos ((hkeeps child).trans hrole), hagain]
    · rw [if_neg hrole, modifyChildByField.modifyIn, if_neg hrole, ih]

/-- To change the child in a role of a node once more does nothing, under the same conditions. -/
theorem modifyChildByField_again (hkeeps : ∀ child, (change child).field = child.field)
    (hagain : ∀ child, change (change child) = change child) (node : Node) :
    (node.modifyChildByField role change).modifyChildByField role change =
      node.modifyChildByField role change :=
  congrArg (fun children => { node with children })
    (modifyIn_modifyIn hkeeps hagain node.children)

end role

/-! ### Changing it again -/

section again

/-- The property does not depend on the children of a node, a changed node still has it, and
changing a node that has it once more does nothing. -/
structure Settles (holds : Node → Bool) (change : Node → Node) : Prop where
  children : ∀ (node : Node) (children : List Node), holds { node with children } = holds node
  kept : ∀ node, holds node = true → holds (change node) = true
  again : ∀ node, holds node = true → change (change node) = change node

/-- A second change of the first node with the property does nothing more. -/
theorem modifyWhereList?_of_again {nodes edited : List Node}
    (h : ∀ node ∈ nodes, ∀ left, modifyWhere? holds change node = some left →
      modifyWhere? holds change left = some left)
    (hedited : modifyWhereList? holds change nodes = some edited) :
    modifyWhereList? holds change edited = some edited := by
  induction nodes generalizing edited with
  | nil => cases hedited
  | cons node rest ih =>
    rw [modifyWhereList?] at hedited
    cases hchanged : modifyWhere? holds change node with
    | some changed =>
      rw [hchanged] at hedited
      obtain rfl : changed :: rest = edited := Option.some.inj hedited
      rw [modifyWhereList?, h node List.mem_cons_self changed hchanged]
    | none =>
      rw [hchanged] at hedited
      obtain ⟨others, hothers, rfl⟩ := Option.map_eq_some_iff.mp hedited
      have hagain := ih (fun other hother => h other (List.mem_cons_of_mem _ hother)) hothers
      rw [modifyWhereList?, hchanged, hagain]
      rfl

/-- A change that settles what it is made to does nothing the second time. -/
theorem modifyWhere?_again (h : Settles holds change) {node left : Node}
    (hleft : modifyWhere? holds change node = some left) :
    modifyWhere? holds change left = some left := by
  induction node using childInduction generalizing left with
  | step node ih =>
    rw [modifyWhere?_eq] at hleft
    cases hholds : holds node with
    | true =>
      rw [hholds] at hleft
      obtain rfl : change node = left := Option.some.inj hleft
      rw [modifyWhere?_eq, h.kept node hholds, h.again node hholds]
      rfl
    | false =>
      rw [hholds] at hleft
      obtain ⟨children, hchildren, rfl⟩ := Option.map_eq_some_iff.mp hleft
      have hagain := modifyWhereList?_of_again (fun child hchild left => ih child hchild) hchildren
      rw [modifyWhere?_eq, h.children, hholds, hagain]
      rfl

end again

end Node

/-- The same for a whole tree. -/
theorem Tree.modifyWhere?_again {holds : Node → Bool} {change : Node → Node}
    (h : Node.Settles holds change) {tree edited : Tree}
    (hedited : tree.modifyWhere? holds change = some edited) :
    edited.modifyWhere? holds change = some edited := by
  obtain ⟨statements, hstatements, rfl⟩ := Option.map_eq_some_iff.mp hedited
  have hagain := Node.modifyWhereList?_of_again
    (fun _ _ _ => Node.modifyWhere?_again h) hstatements
  exact congrArg (Option.map Tree.mk) hagain

end Retouch
