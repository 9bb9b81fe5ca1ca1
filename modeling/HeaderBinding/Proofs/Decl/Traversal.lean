import HeaderBinding.Proofs.Decl.Reach
import HeaderBinding.Proofs.Decl.Scope
import Mathlib.Data.List.Chain

/-!
# Walks through a tree end

Where declarations are written and which scopes they belong to are two things. The first make a
tree: a walk meets each declaration once, and no way from the header inwards is longer than the
header is large. The second need not, but lead to a header unless there is a circle. Main statement:
`Grown.traversable`.
-/

namespace HeaderBinding
namespace Decl
namespace Tree

variable {tree : Tree} {enter : Node → Bool} {node : Node} {id outer inner child fuel more : Nat}

/-! ## Declarations inside others -/

/-- A declaration is written in another one. -/
def WrittenIn (tree : Tree) (inner outer : NodeId) : Prop :=
  inner ∈ tree.children outer

/-- What a declaration holds is listed in the order in which it was added. -/
theorem Grown.pairwise_children (grown : tree.Grown) (id : NodeId) :
    (tree.children id).Pairwise (· < ·) := by
  induction grown with
  | refl => cases id <;> exact List.Pairwise.nil
  | @push tree parent grows inside node sorted =>
      rw [children_push inside]
      apply List.pairwise_append.mpr
      refine ⟨sorted, ?_, ?_⟩
      · split <;> simp
      · intro child written added new
        split at new
        · obtain rfl := List.mem_singleton.mp new
          exact (Grown.wellFormed grows).child_lt_size written
        · cases new
  | setScope _ _ _ sorted => rwa [children_setScope]
  | rename _ _ _ sorted => rwa [children_rename]

theorem writtenIn_of_mem_below (met : inner ∈ tree.below enter fuel outer) :
    Relation.TransGen tree.WrittenIn inner outer := by
  induction fuel generalizing outer with
  | zero => simp [below] at met
  | succ fuel induction =>
      obtain ⟨next, written, met⟩ := List.mem_flatMap.mp met
      rcases List.mem_cons.mp met with rfl | deeper
      · exact .single written
      · split at deeper
        · exact .tail (induction deeper) written
        · cases deeper

theorem below_of_size_le (outside : tree.size ≤ outer) : tree.below enter fuel outer = [] := by
  cases fuel with
  | zero => rfl
  | succ => rw [below, children_of_size_le outside, List.flatMap_nil]

namespace WellFormed

theorem rightUnique_writtenIn (wf : tree.WellFormed) : Relator.RightUnique tree.WrittenIn :=
  fun _ _ _ written again => wf.parent_unique written again

theorem le_of_writtenIn (wf : tree.WellFormed)
    (inside : Relation.ReflTransGen tree.WrittenIn inner outer) : outer ≤ inner := by
  induction inside with
  | refl => exact Nat.le_refl _
  | tail _ written induction => exact Nat.le_trans (wf.le_child written) induction

/-- Of two declarations that are written in the same one, neither is inside the other. -/
theorem not_writtenIn_sibling (wf : tree.WellFormed) {first second : NodeId}
    (apart : outer ∉ tree.children outer) (first_written : first ∈ tree.children outer)
    (second_written : second ∈ tree.children outer) (differ : first ≠ second) :
    ¬Relation.ReflTransGen tree.WrittenIn first second := by
  intro inside
  rcases Relation.ReflTransGen.cases_head inside with same | ⟨parent, written, above⟩
  · exact differ same
  · -- The way out of the first one leads to `outer`, and the second is not outside of that.
    obtain rfl := wf.parent_unique written first_written
    have before : second ≤ parent := wf.le_of_writtenIn above
    exact absurd (wf.lt_child apart second_written).1 (Nat.not_lt_of_le before)

/-- What is inside one declaration, is not inside another one beside it. -/
theorem disjoint_siblings (wf : tree.WellFormed) {first second : NodeId}
    (apart : outer ∉ tree.children outer) (first_written : first ∈ tree.children outer)
    (second_written : second ∈ tree.children outer) (differ : first ≠ second)
    (in_first : Relation.ReflTransGen tree.WrittenIn inner first) :
    ¬Relation.ReflTransGen tree.WrittenIn inner second := by
  intro in_second
  rcases in_first.total_of_right_unique wf.rightUnique_writtenIn in_second with up | up
  · exact wf.not_writtenIn_sibling apart first_written second_written differ up
  · exact wf.not_writtenIn_sibling apart second_written first_written differ.symm up

/-! ## Walks -/

theorem root_apart (wf : tree.WellFormed) : root ∉ tree.children root :=
  fun own => Nat.lt_irrefl _ (wf.child_pos own)

theorem lt_of_mem_below (wf : tree.WellFormed) (apart : outer ∉ tree.children outer)
    (met : inner ∈ tree.below enter fuel outer) : outer < inner := by
  obtain ⟨child, above, written⟩ := Relation.TransGen.tail'_iff.mp (writtenIn_of_mem_below met)
  exact Nat.lt_of_lt_of_le (wf.lt_child apart written).1 (wf.le_of_writtenIn above)

/-- A walk meets no declaration twice. -/
theorem nodup_below (wf : tree.WellFormed) (distinct : ∀ id, (tree.children id).Nodup)
    (apart : outer ∉ tree.children outer) : (tree.below enter fuel outer).Nodup := by
  induction fuel generalizing outer with
  | zero => exact List.nodup_nil
  | succ fuel induction =>
      -- What is met in a child of `outer`, is that child or inside it.
      have inside {child met : NodeId} (listed : met ∈ child ::
          if (tree.node? child).any enter then tree.below enter fuel child else []) :
          Relation.ReflTransGen tree.WrittenIn met child := by
        rcases List.mem_cons.mp listed with rfl | deeper
        · exact .refl
        · split at deeper
          · exact (writtenIn_of_mem_below deeper).to_reflTransGen
          · cases deeper
      refine List.nodup_flatMap.mpr ⟨fun child written => ?_, ?_⟩
      · have child_apart := (wf.lt_child apart written).2
        apply List.nodup_cons.mpr
        split
        · exact ⟨fun again => Nat.lt_irrefl _ (wf.lt_of_mem_below child_apart again),
            induction child_apart⟩
        · exact ⟨List.not_mem_nil, List.nodup_nil⟩
      · apply (distinct outer).imp_of_mem
        intro first second first_written second_written differ met in_first in_second
        exact wf.disjoint_siblings apart first_written second_written differ (inside in_first)
          (inside in_second)

/-- A walk that may go as deep as there are declarations is not cut off. -/
theorem below_eq_of_size_le (wf : tree.WellFormed) (apart : outer ∉ tree.children outer)
    (enough : tree.size ≤ fuel + outer) (also_enough : tree.size ≤ more + outer) :
    tree.below enter fuel outer = tree.below enter more outer := by
  induction fuel generalizing outer more with
  | zero => rw [below, below_of_size_le (Nat.zero_add outer ▸ enough)]
  | succ fuel induction =>
      cases more with
      | zero => rw [below.eq_1, below_of_size_le (Nat.zero_add outer ▸ also_enough)]
      | succ more =>
          apply List.flatMap_congr
          intro child written
          obtain ⟨child_gt, child_apart⟩ := wf.lt_child apart written
          have same : tree.below enter fuel child = tree.below enter more child :=
            induction child_apart (by omega) (by omega)
          rw [same]

/-- On the way inwards from a declaration that is not written in itself, numbers increase. -/
theorem pairwise_of_isChain (wf : tree.WellFormed) (apart : outer ∉ tree.children outer)
    {path : List NodeId}
    (inwards : (outer :: path).IsChain fun outer inner => tree.WrittenIn inner outer) :
    (outer :: path).Pairwise (· < ·) := by
  have steps : (outer :: path).IsChain (· < ·) := by
    induction path generalizing outer with
    | nil => exact .singleton _
    | cons next path induction =>
        obtain ⟨written, inwards⟩ := List.isChain_cons_cons.mp inwards
        obtain ⟨next_gt, next_apart⟩ := wf.lt_child apart written
        exact List.isChain_cons_cons.mpr ⟨next_gt, induction next_apart inwards⟩
  exact steps.pairwise

theorem map_fst_entries (wf : tree.WellFormed) :
    (tree.entries enter).map Prod.fst = tree.walk enter := by
  have known {id : NodeId} (met : id ∈ tree.walk enter) : id < tree.size := by
    cases wf.mem_walk_iff.mp met with
    | top written => exact wf.child_lt_size written
    | inside _ _ _ written => exact wf.child_lt_size written
  have found (id : NodeId) (met : id ∈ tree.walk enter) :
      ((tree.node? id).map (id, ·)).map Prod.fst = some id := by
    rw [node?, Array.getElem?_eq_getElem (known met)]
    rfl
  rw [entries, List.map_filterMap]
  exact (List.filterMap_congr found).trans List.filterMap_some

end WellFormed

/-! ## Both together -/

/-- The declarations of a header can be walked through and named. -/
structure Traversable (tree : Tree) : Prop where
  /-- A declaration is written in no more than one other. -/
  parent_unique : ∀ {id other child}, child ∈ tree.children id → child ∈ tree.children other →
    id = other
  /-- No declaration is written in one that was added later. -/
  le_child : ∀ {id child}, child ∈ tree.children id → id ≤ child
  /-- What is written in a declaration is listed once, in the order in which it was added. -/
  pairwise_children : ∀ id, (tree.children id).Pairwise (· < ·)
  /-- Numbers increase along each way inwards from the header. -/
  pairwise_path : ∀ path : List NodeId,
    (root :: path).IsChain (fun outer inner => tree.WrittenIn inner outer) →
      (root :: path).Pairwise (· < ·)
  /-- A walk meets whatever it can reach. -/
  mem_walk_iff : ∀ enter id, id ∈ tree.walk enter ↔ tree.Reaches enter id
  /-- A walk meets each declaration once. -/
  nodup_walk : ∀ enter, (tree.walk enter).Nodup
  map_fst_entries : ∀ enter, (tree.entries enter).map Prod.fst = tree.walk enter
  /-- A walk ends before the bound on its depth: it stays the same if it may go deeper. -/
  below_eq_walk : ∀ enter depth, tree.size ≤ depth → tree.below enter depth root = tree.walk enter
  /-- Scopes are declarations of the header. -/
  scope_lt_size : ∀ {id scope}, tree.scope? id = some scope → scope < tree.size
  /-- The qualified name is made along scopes, of declarations of the header only. There may be
  circles; no more than one declaration is met in excess of all. -/
  qualifiedName_eq : ∀ id, id < tree.size →
    tree.qualifiedName id = "::".intercalate (tree.spelled (tree.scopeWalk (tree.size + 1) id)) ∧
    (tree.scopeWalk (tree.size + 1) id).length ≤ tree.size + 1 ∧
    ∀ met ∈ tree.scopeWalk (tree.size + 1) id, met < tree.size
  /-- Without a circle it is made of the names of all scopes up to the first header. -/
  qualifiedName_of_isAcyclic : ∀ id, id < tree.size → tree.IsAcyclic id →
    ∃ ids, tree.Lineage id ids ∧ tree.qualifiedName id = "::".intercalate (tree.spelled ids)

theorem Grown.traversable (grown : tree.Grown) : tree.Traversable where
  parent_unique := grown.wellFormed.parent_unique
  le_child := grown.wellFormed.le_child
  pairwise_children := grown.pairwise_children
  pairwise_path _ := grown.wellFormed.pairwise_of_isChain grown.wellFormed.root_apart
  mem_walk_iff _ _ := grown.wellFormed.mem_walk_iff
  nodup_walk _ := by
    have distinct (id : NodeId) : (tree.children id).Nodup :=
      (grown.pairwise_children id).imp Nat.ne_of_lt
    exact grown.wellFormed.nodup_below distinct grown.wellFormed.root_apart
  map_fst_entries _ := grown.wellFormed.map_fst_entries
  below_eq_walk _ _ enough :=
    grown.wellFormed.below_eq_of_size_le grown.wellFormed.root_apart enough (Nat.le_refl _)
  scope_lt_size := grown.scopesInside.lt_size
  qualifiedName_eq id known := by
    refine ⟨qualifiedName_eq_spelled tree id, length_scopeWalk_le tree _ id, fun met listed => ?_⟩
    exact grown.scopesInside.lt_size_of_mem_scopeWalk known listed
  qualifiedName_of_isAcyclic id known acyclic := by
    obtain ⟨ids, lineage⟩ :=
      grown.scopesInside.exists_lineage grown.wellFormed.kind_root known acyclic
    exact ⟨ids, lineage, lineage.qualifiedName_eq⟩

/-- Declaration 2 belongs to 1, which is relinked to 2; declaration 3 is added inside itself and is
its own scope. Numbers that are not in the tree are left alone. -/
def circular : Tree :=
  empty.push root { kind := .namespaceScope, name := "a" }
    |>.push 1 { kind := .classType, name := "b" }
    |>.push 3 { kind := .other, name := "c" }
    |>.setScope 1 2
    |>.setScope 9 1
    |>.setScope 2 9
    |>.rename 1 "d"

theorem traversable_circular : circular.Grown ∧ circular.Traversable ∧
    circular.walk (fun _ => true) = [1, 2] ∧ circular.scopeWalk 5 2 = [2, 1, 2, 1, 2] ∧
    circular.scopeWalk 5 3 = [3, 3, 3, 3, 3] := by
  have grown : circular.Grown :=
    Grows.refl.push (by decide) _ |>.push (by decide) _ |>.push (by decide) _ |>.setScope 1 2
      |>.setScope 9 1 |>.setScope 2 9 |>.rename 1 "d"
  exact ⟨grown, Grown.traversable grown, by decide, by decide, by decide⟩

end Tree
end Decl
end HeaderBinding
