import HeaderBinding.Proofs.Decl.Tree

/-!
# Declarations that a walk meets

A walk reaches the declarations of a header through those that it may enter. Numbers increase on the
way inside, so the bound on the depth of a walk is never met and every declaration that can be
reached is listed.
-/

namespace HeaderBinding
namespace Decl
namespace Tree

variable {tree : Tree} {enter : Node → Bool} {node : Node} {fuel id outer child : Nat}

/-- All declarations that the declaration is written in may be entered. -/
inductive Reaches (tree : Tree) (enter : Node → Bool) : NodeId → Prop where
  | top {id : NodeId} (written : id ∈ tree.children root) : Reaches tree enter id
  | inside {outer id : NodeId} {node : Node} (reaches : Reaches tree enter outer)
      (found : tree.node? outer = some node) (enters : enter node)
      (written : id ∈ tree.children outer) : Reaches tree enter id

theorem Reaches.mono {wider : Node → Bool} (wide : ∀ node, enter node → wider node)
    (reaches : tree.Reaches enter id) : tree.Reaches wider id := by
  induction reaches with
  | top written => exact .top written
  | inside _ found enters written induction => exact .inside induction found (wide _ enters) written

theorem reaches_of_mem_below (opened : ∀ child ∈ tree.children outer, tree.Reaches enter child)
    (met : id ∈ tree.below enter fuel outer) : tree.Reaches enter id := by
  induction fuel generalizing outer with
  | zero => simp [below] at met
  | succ fuel induction =>
      obtain ⟨next, written, met⟩ := List.mem_flatMap.mp met
      have reaches := opened next written
      rcases List.mem_cons.mp met with rfl | deeper
      · exact reaches
      · split at deeper
        · rename_i enters
          obtain ⟨node, found, enters⟩ := (Option.any_eq_true ..).mp enters
          apply induction _ deeper
          intro child written
          exact .inside reaches found enters written
        · simp at deeper

namespace WellFormed

/-- A declaration that is not written in itself is outside of those written in it, and none of these
is written in itself either. -/
theorem lt_child (wf : tree.WellFormed) (apart : outer ∉ tree.children outer)
    (written : child ∈ tree.children outer) : outer < child ∧ child ∉ tree.children child := by
  have differs : outer ≠ child := by
    rintro rfl
    exact apart written
  constructor
  · exact Nat.lt_of_le_of_ne (wf.le_child written) differs
  · intro own
    exact differs (wf.parent_unique written own)

/-- A walk that is deep enough goes on into whatever it may enter. -/
theorem mem_below (wf : tree.WellFormed) (apart : id ∉ tree.children id)
    (enough : tree.size ≤ fuel + id) (met : outer ∈ tree.below enter fuel id)
    (found : tree.node? outer = some node) (enters : enter node)
    (written : child ∈ tree.children outer) : child ∈ tree.below enter fuel id := by
  induction fuel generalizing id with
  | zero => simp [below] at met
  | succ fuel induction =>
      obtain ⟨next, next_written, met⟩ := List.mem_flatMap.mp met
      obtain ⟨next_gt, next_apart⟩ := wf.lt_child apart next_written
      apply List.mem_flatMap.mpr
      refine ⟨next, next_written, List.mem_cons_of_mem _ ?_⟩
      rcases List.mem_cons.mp met with rfl | deeper
      · have child_gt := (wf.lt_child next_apart written).1
        have child_lt : child < tree.size := wf.child_lt_size written
        obtain ⟨less, rfl⟩ := Nat.exists_eq_add_one_of_ne_zero (show fuel ≠ 0 by omega)
        rw [found, Option.any_some, if_pos enters]
        exact List.mem_flatMap.mpr ⟨child, written, List.mem_cons_self⟩
      · split at deeper
        · rename_i next_enters
          rw [if_pos next_enters]
          exact induction next_apart (by omega) deeper
        · simp at deeper

theorem mem_walk_iff (wf : tree.WellFormed) : id ∈ tree.walk enter ↔ tree.Reaches enter id := by
  constructor
  · exact reaches_of_mem_below fun child written => .top written
  · have apart : root ∉ tree.children root := fun own => Nat.lt_irrefl _ (wf.child_pos own)
    intro reaches
    induction reaches with
    | @top id written =>
        obtain ⟨fuel, size_eq⟩ := Nat.exists_eq_add_one_of_ne_zero (Nat.ne_of_gt wf.size_pos)
        rw [walk, size_eq]
        exact List.mem_flatMap.mpr ⟨id, written, List.mem_cons_self⟩
    | inside _ found enters written induction =>
        exact wf.mem_below apart (Nat.le_refl _) induction found enters written

theorem mem_entries_iff (wf : tree.WellFormed) :
    (id, node) ∈ tree.entries enter ↔ tree.Reaches enter id ∧ tree.node? id = some node := by
  rw [entries, mem_filterMap_node?, wf.mem_walk_iff]

end WellFormed
end Tree
end Decl
end HeaderBinding
