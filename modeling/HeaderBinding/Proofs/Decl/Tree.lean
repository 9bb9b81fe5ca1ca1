import HeaderBinding.Decl.Tree

/-!
# Trees as they grow

A front end starts with an empty header. It adds declarations one after the other, each inside one
that is there already or, if it is mistaken about the number, inside itself; later it may give a
declaration another scope or another name. Where a declaration is written is settled when it is
added, so that numbers increase from each declaration to those inside it.
-/

namespace HeaderBinding
namespace Decl
namespace Tree

variable {tree : Tree} {id parent scope : NodeId} {node : Node} {name : String}

/-- A tree is made of another one by adding, relinking and renaming declarations. -/
inductive Grows (start : Tree) : Tree → Prop where
  | refl : Grows start start
  | push {tree : Tree} {parent : NodeId} (grows : Grows start tree) (inside : parent ≤ tree.size)
      (node : Node) : Grows start (tree.push parent node)
  | setScope {tree : Tree} (grows : Grows start tree) (id scope : NodeId) :
      Grows start (tree.setScope id scope)
  | rename {tree : Tree} (grows : Grows start tree) (id : NodeId) (name : String) :
      Grows start (tree.rename id name)

/-- The tree is made of the one without declarations. -/
def Grown (tree : Tree) : Prop :=
  empty.Grows tree

theorem mem_filterMap_node? {ids : List NodeId} :
    (id, node) ∈ ids.filterMap (fun other => (tree.node? other).map (other, ·)) ↔
      id ∈ ids ∧ tree.node? id = some node := by
  rw [List.mem_filterMap]
  constructor
  · rintro ⟨other, listed, pair⟩
    obtain ⟨found_node, found, same⟩ := Option.map_eq_some_iff.mp pair
    cases same
    exact ⟨listed, found⟩
  · rintro ⟨listed, found⟩
    exact ⟨id, listed, by rw [found, Option.map_some]⟩

/-- All declarations of a header, with their numbers. -/
def listed (tree : Tree) : List (NodeId × Node) :=
  (List.range tree.size).filterMap fun id => (tree.node? id).map (id, ·)

theorem mem_listed (found : tree.node? id = some node) : (id, node) ∈ tree.listed := by
  have id_lt : id < tree.size := (Array.getElem?_eq_some_iff.mp found).1
  exact mem_filterMap_node?.mpr ⟨List.mem_range.mpr id_lt, found⟩

/-! ## What an operation leaves as it is -/

@[simp]
theorem size_push : (tree.push parent node).size = tree.size + 1 := by
  simp [push, size]

@[simp]
theorem size_setScope : (tree.setScope id scope).size = tree.size := by
  unfold setScope
  split
  · rfl
  · simp [size]

@[simp]
theorem size_rename : (tree.rename id name).size = tree.size := by
  simp [rename, size]

theorem node?_of_size_le (outside : tree.size ≤ id) : tree.node? id = none :=
  Array.getElem?_eq_none outside

theorem children_of_size_le (outside : tree.size ≤ id) : tree.children id = [] := by
  simp [children, node?_of_size_le outside]

theorem node?_push (id : NodeId) : (tree.push parent node).node? id =
    let found := if id = tree.size then some { node with scope? := some parent, children := #[] }
      else tree.node? id
    if parent = id then
      found.map fun outer => { outer with children := outer.children.push tree.size }
    else found := by
  simp only [node?, push, Array.getElem?_modify, Array.getElem?_push]
  rfl

/-- What a change of a declaration does not touch, stays as it is everywhere. -/
theorem map_getElem?_modify {α : Type} {nodes : Array Node} {change : Node → Node}
    (view : Node → α) (blind : ∀ node, view (change node) = view node) (id other : NodeId) :
    (nodes.modify id change)[other]?.map view = nodes[other]?.map view := by
  rw [Array.getElem?_modify]
  split
  · rw [Option.map_map]
    exact congrArg (Option.map · _) (funext blind)
  · rfl

theorem map_node?_setScope {α : Type} (view : Node → α)
    (blind : ∀ node scope, view { node with scope? := some scope } = view node) (other : NodeId) :
    ((tree.setScope id scope).node? other).map view = (tree.node? other).map view := by
  unfold setScope
  split
  · rfl
  · exact map_getElem?_modify view (fun node => blind node scope) id other

theorem map_node?_rename {α : Type} (view : Node → α)
    (blind : ∀ node name, view { node with name } = view node) (other : NodeId) :
    ((tree.rename id name).node? other).map view = (tree.node? other).map view :=
  map_getElem?_modify view (fun node => blind node name) id other

@[simp]
theorem children_setScope (other : NodeId) :
    (tree.setScope id scope).children other = tree.children other := by
  rw [children, map_node?_setScope _ fun _ _ => rfl, children]

@[simp]
theorem children_rename (other : NodeId) :
    (tree.rename id name).children other = tree.children other := by
  rw [children, map_node?_rename _ fun _ _ => rfl, children]

/-- Only the declaration that another one is written in gets a child. -/
theorem children_push (inside : parent ≤ tree.size) (id : NodeId) :
    (tree.push parent node).children id =
      tree.children id ++ if parent = id then [tree.size] else [] := by
  have outside : tree.node? tree.size = none := node?_of_size_le (Nat.le_refl _)
  rw [children, children, node?_push]
  by_cases own : parent = id
  · subst own
    rcases Nat.eq_or_lt_of_le inside with new | known
    · simp [new, outside]
    · obtain ⟨outer, found⟩ : ∃ outer, tree.node? parent = some outer :=
        ⟨_, Array.getElem?_eq_getElem known⟩
      simp [Nat.ne_of_lt known, found]
  · simp only [if_neg own, List.append_nil]
    by_cases new : id = tree.size
    · simp [new, outside]
    · simp [new]

theorem mem_children_push (inside : parent ≤ tree.size) {child : NodeId} :
    child ∈ (tree.push parent node).children id ↔
      child ∈ tree.children id ∨ parent = id ∧ child = tree.size := by
  rw [children_push inside, List.mem_append]
  split <;> simp_all

/-- What a declaration is, does not change when another one is added. -/
theorem map_kind_node?_push (known : id < tree.size) :
    ((tree.push parent node).node? id).map Node.kind = (tree.node? id).map Node.kind := by
  simp only [node?_push, if_neg (Nat.ne_of_lt known)]
  split
  · rw [Option.map_map]
    rfl
  · rfl

theorem Grows.trans {start between : Tree} (first : start.Grows between)
    (second : between.Grows tree) : start.Grows tree := by
  induction second with
  | refl => exact first
  | push _ inside node induction => exact induction.push inside node
  | setScope _ id scope induction => exact induction.setScope id scope
  | rename _ id name induction => exact induction.rename id name

/-! ## What holds while the tree grows -/

/-- The declarations of a header are numbered from the outside to the inside, and each is written
in no more than one other. -/
structure WellFormed (tree : Tree) : Prop where
  kind_root : (tree.node? root).map Node.kind = some .unit
  le_child : ∀ {id child}, child ∈ tree.children id → id ≤ child
  child_pos : ∀ {id child}, child ∈ tree.children id → 0 < child
  child_lt_size : ∀ {id child}, child ∈ tree.children id → child < tree.size
  parent_unique : ∀ {id other child}, child ∈ tree.children id → child ∈ tree.children other →
    id = other

namespace WellFormed

theorem size_pos (wf : tree.WellFormed) : 0 < tree.size := by
  obtain ⟨header, found, -⟩ := Option.map_eq_some_iff.mp wf.kind_root
  exact (Array.getElem?_eq_some_iff.mp found).1

theorem empty : Tree.empty.WellFormed := by
  have childless (id : NodeId) : Tree.empty.children id = [] := by
    cases id with
    | zero => rfl
    | succ id => exact children_of_size_le (Nat.le_add_left 1 id)
  constructor
  · rfl
  all_goals simp [childless]

theorem push (wf : tree.WellFormed) (inside : parent ≤ tree.size) (node : Node) :
    (tree.push parent node).WellFormed where
  kind_root := (map_kind_node?_push wf.size_pos).trans wf.kind_root
  le_child written := by
    rcases (mem_children_push inside).mp written with before | ⟨rfl, rfl⟩
    · exact wf.le_child before
    · exact inside
  child_pos written := by
    rcases (mem_children_push inside).mp written with before | ⟨rfl, rfl⟩
    · exact wf.child_pos before
    · exact wf.size_pos
  child_lt_size written := by
    rw [size_push]
    rcases (mem_children_push inside).mp written with before | ⟨rfl, rfl⟩
    · exact Nat.lt_succ_of_lt (wf.child_lt_size before)
    · exact Nat.lt_succ_self _
  parent_unique written again := by
    -- The new declaration was not written anywhere before.
    rcases (mem_children_push inside).mp written with before | ⟨rfl, rfl⟩
    · rcases (mem_children_push inside).mp again with before' | ⟨rfl, rfl⟩
      · exact wf.parent_unique before before'
      · exact absurd (wf.child_lt_size before) (Nat.lt_irrefl _)
    · rcases (mem_children_push inside).mp again with before | ⟨same, -⟩
      · exact absurd (wf.child_lt_size before) (Nat.lt_irrefl _)
      · exact same

/-- Only the kind of the header and where declarations are written matter. -/
theorem of_same_children {other : Tree} (wf : tree.WellFormed)
    (children : ∀ id, other.children id = tree.children id) (size : other.size = tree.size)
    (kind : (other.node? root).map Node.kind = (tree.node? root).map Node.kind) :
    other.WellFormed where
  kind_root := kind.trans wf.kind_root
  le_child written := wf.le_child (children _ ▸ written)
  child_pos written := wf.child_pos (children _ ▸ written)
  child_lt_size written := size ▸ wf.child_lt_size (children _ ▸ written)
  parent_unique written again := wf.parent_unique (children _ ▸ written) (children _ ▸ again)

theorem setScope (wf : tree.WellFormed) (id scope : NodeId) :
    (tree.setScope id scope).WellFormed :=
  wf.of_same_children children_setScope size_setScope
    (map_node?_setScope Node.kind (fun _ _ => rfl) root)

theorem rename (wf : tree.WellFormed) (id : NodeId) (name : String) :
    (tree.rename id name).WellFormed :=
  wf.of_same_children children_rename size_rename
    (map_node?_rename Node.kind (fun _ _ => rfl) root)

end WellFormed

theorem Grown.wellFormed (grown : tree.Grown) : tree.WellFormed := by
  induction grown with
  | refl => exact .empty
  | push _ inside node wf => exact wf.push inside node
  | setScope _ id scope wf => exact wf.setScope id scope
  | rename _ id name wf => exact wf.rename id name

end Tree
end Decl
end HeaderBinding
