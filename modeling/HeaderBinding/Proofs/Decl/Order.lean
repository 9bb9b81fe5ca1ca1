import HeaderBinding.Proofs.Decl.Scope

/-!
# Trees in order

A front end that knows what it has added writes each declaration inside one that was added before,
and lets it belong to one that was added before. Then scopes lead to the header from everywhere, and
no walk along them is cut off. Main statement: `Ordered.exists_lineage`.
-/

namespace HeaderBinding
namespace Decl
namespace Tree

variable {tree : Tree} {id outer parent scope : Nat} {node : Node} {ids : List NodeId}

/-- Whatever is in the header was added after what it is written in and after the scope that it
belongs to, and there is no other header. -/
structure Ordered (tree : Tree) : Prop where
  written : ∀ {id}, id < tree.size → id ≠ root → ∃ outer, outer < id ∧ id ∈ tree.children outer
  descends : tree.Descends
  scope?_root : tree.scope? root = none
  isUnit_iff : ∀ {id}, (tree.node? id).map Node.kind = some .unit ↔ id = root

namespace Ordered

theorem empty : Tree.empty.Ordered := by
  have alone {id : NodeId} (known : id < Tree.empty.size) : id = root := Nat.lt_one_iff.mp known
  refine ⟨fun known apart => absurd (alone known) apart,
    fun id known apart => absurd (alone known) apart, rfl, fun {id} => ?_⟩
  constructor
  · intro isUnit
    obtain ⟨_, found, -⟩ := Option.map_eq_some_iff.mp isUnit
    exact alone (Array.getElem?_eq_some_iff.mp found).1
  · rintro rfl
    rfl

theorem size_pos (ordered : tree.Ordered) : 0 < tree.size := by
  obtain ⟨_, found, -⟩ := Option.map_eq_some_iff.mp (ordered.isUnit_iff.mpr rfl)
  exact (Array.getElem?_eq_some_iff.mp found).1

theorem push (ordered : tree.Ordered) (inside : parent < tree.size) (noUnit : node.kind ≠ .unit) :
    (tree.push parent node).Ordered where
  written {id} known apart := by
    simp only [mem_children_push (Nat.le_of_lt inside)]
    rw [size_push] at known
    rcases Nat.lt_succ_iff_lt_or_eq.mp known with old | rfl
    · obtain ⟨outer, before, written⟩ := ordered.written old apart
      exact ⟨outer, before, .inl written⟩
    · exact ⟨parent, inside, .inr ⟨rfl, rfl⟩⟩
  descends id known apart := by
    rw [scope?_push]
    rw [size_push] at known
    rcases Nat.lt_succ_iff_lt_or_eq.mp known with old | rfl
    · rw [if_neg (Nat.ne_of_lt old)]
      exact ordered.descends id old apart
    · exact ⟨parent, inside, if_pos rfl⟩
  scope?_root := by
    have old : root ≠ tree.size := Nat.ne_of_lt ordered.size_pos
    rw [scope?_push, if_neg old, ordered.scope?_root]
  isUnit_iff {id} := by
    rcases Nat.lt_trichotomy id tree.size with old | rfl | more
    · rw [map_kind_node?_push old, ordered.isUnit_iff]
    · simp [node?_push, Nat.ne_of_lt inside, noUnit, Nat.ne_of_gt ordered.size_pos, root]
    · have missing : (tree.push parent node).node? id = none :=
        node?_of_size_le (by rw [size_push]; exact more)
      simp [missing, root, Nat.ne_of_gt (Nat.zero_lt_of_lt more)]

/-- A scope is not given a place inside itself, as it may not be set to itself. -/
theorem setScope (ordered : tree.Ordered) (apart : id ≠ root) (scope_le : scope ≤ id) :
    (tree.setScope id scope).Ordered where
  written known apart := by
    simp only [children_setScope]
    exact ordered.written (size_setScope ▸ known) apart
  descends other known other_apart := by
    rw [scope?_setScope]
    rw [size_setScope] at known
    split
    · rename_i set
      obtain ⟨rfl, -, differs, -⟩ := set
      exact ⟨scope, Nat.lt_of_le_of_ne scope_le differs.symm, rfl⟩
    · exact ordered.descends other known other_apart
  scope?_root := by
    rw [scope?_setScope, if_neg fun set => apart set.1.symm, ordered.scope?_root]
  isUnit_iff := by
    intro other
    rw [map_node?_setScope Node.kind fun _ _ => rfl, ordered.isUnit_iff]

/-- Along scopes numbers decrease, down to that of the header. -/
theorem of_lineage (ordered : tree.Ordered) (lineage : tree.Lineage id ids) :
    ids.getLast? = some root ∧ (∀ met ∈ ids, met ≤ id) ∧ ids.Pairwise (· > ·) := by
  induction lineage with
  | header found isUnit =>
      obtain rfl := ordered.isUnit_iff.mp (by rw [found, Option.map_some, isUnit])
      simp
  | @within id outer ids belongs lineage induction =>
      obtain ⟨ends, below, decreasing⟩ := induction
      have known := belongs.lt_size
      obtain ⟨node, found, noUnit, scope_eq⟩ := belongs
      have apart : id ≠ root := by
        intro same
        have isUnit := ordered.isUnit_iff.mpr same
        rw [found] at isUnit
        exact noUnit (Option.some.inj isUnit)
      obtain ⟨scope, before, found_scope⟩ := ordered.descends id known apart
      rw [scope?, found, Option.bind_some, scope_eq] at found_scope
      obtain rfl := Option.some.inj found_scope
      have all_below : ∀ met ∈ ids, met < id := fun met listed =>
        Nat.lt_of_le_of_lt (below met listed) before
      refine ⟨?_, List.forall_mem_cons.mpr ⟨Nat.le_refl id, fun met listed =>
        Nat.le_of_lt (all_below met listed)⟩, List.pairwise_cons.mpr ⟨all_below, decreasing⟩⟩
      rw [List.getLast?_cons, ends]
      rfl

/-- From every declaration scopes lead to the header, and the walk for a qualified name gets
there. -/
theorem exists_lineage (ordered : tree.Ordered) (known : id < tree.size) :
    ∃ ids, tree.Lineage id ids ∧ ids.getLast? = some root ∧ ids.Pairwise (· > ·) ∧
      ∀ fuel, tree.size ≤ fuel → tree.scopeNames fuel id = tree.spelled ids := by
  obtain ⟨ids, lineage⟩ := ordered.descends.exists_lineage (ordered.isUnit_iff.mpr rfl) known
  obtain ⟨ends, -, decreasing⟩ := ordered.of_lineage lineage
  refine ⟨ids, lineage, ends, decreasing, fun fuel enough => ?_⟩
  have short : ids.length ≤ tree.size := length_le_size lineage.nodup lineage.lt_size
  rw [scopeNames_eq_spelled, lineage.scopeWalk_eq (Nat.le_trans short enough)]

end Ordered

end Tree
end Decl
end HeaderBinding
