import HeaderBinding.Proofs.Decl.Traversal

/-!
# Source order

One way leads inwards to each declaration. What is written in a declaration is numbered in its
order, so the source has declarations in the lexicographic order of the ways to them, each before
those inside it. A walk lists them in this order.
-/

namespace HeaderBinding
namespace Decl
namespace Tree

variable {tree : Tree} {enter : Node → Bool} {outer inner first second fuel : Nat}
  {path other : List NodeId}

/-- The way from a declaration to one inside it: a declaration that is written in the first one, one
that is written in that, and so on. -/
inductive Way (tree : Tree) : NodeId → List NodeId → NodeId → Prop where
  | last {outer inner : NodeId} (written : inner ∈ tree.children outer) :
      Way tree outer [inner] inner
  | step {outer next inner : NodeId} {path : List NodeId} (written : next ∈ tree.children outer)
      (way : Way tree next path inner) : Way tree outer (next :: path) inner

/-- Of two declarations inside `outer`, the first comes first in the source. -/
def Precedes (tree : Tree) (outer first second : NodeId) : Prop :=
  ∃ path other, tree.Way outer path first ∧ tree.Way outer other second ∧ path < other

theorem Way.writtenIn (way : tree.Way outer path inner) :
    Relation.TransGen tree.WrittenIn inner outer := by
  induction way with
  | last written => exact .single written
  | step written _ induction => exact .tail induction written

theorem exists_way_of_mem_below (met : inner ∈ tree.below enter fuel outer) :
    ∃ path, tree.Way outer path inner := by
  induction fuel generalizing outer with
  | zero => simp [below] at met
  | succ fuel induction =>
      obtain ⟨next, written, met⟩ := List.mem_flatMap.mp met
      rcases List.mem_cons.mp met with rfl | deeper
      · exact ⟨_, .last written⟩
      · split at deeper
        · obtain ⟨path, way⟩ := induction deeper
          exact ⟨_, .step written way⟩
        · cases deeper

namespace WellFormed

/-- What is written in a declaration, is not inside anything else that is. -/
theorem not_way_of_written (wf : tree.WellFormed) (apart : outer ∉ tree.children outer)
    (first_written : first ∈ tree.children outer) (second_written : second ∈ tree.children outer) :
    ¬tree.Way first path second := by
  intro way
  obtain ⟨next, above, written⟩ := Relation.TransGen.tail'_iff.mp way.writtenIn
  have deeper : first < second :=
    Nat.lt_of_lt_of_le (wf.lt_child (wf.lt_child apart first_written).2 written).1
      (wf.le_of_writtenIn above)
  exact wf.not_writtenIn_sibling apart second_written first_written (Nat.ne_of_gt deeper)
    way.writtenIn.to_reflTransGen

theorem way_unique (wf : tree.WellFormed) (apart : outer ∉ tree.children outer)
    (way : tree.Way outer path inner) (other_way : tree.Way outer other inner) : path = other := by
  induction way generalizing other with
  | last written =>
      cases other_way with
      | last => rfl
      | step other_written deeper =>
          exact absurd deeper (wf.not_way_of_written apart other_written written)
  | @step outer next inner path written deeper induction =>
      cases other_way with
      | last other_written =>
          exact absurd deeper (wf.not_way_of_written apart written other_written)
      | @step _ other_next _ _ other_written other_deeper =>
          obtain rfl : next = other_next := by
            by_contra differ
            exact wf.disjoint_siblings apart written other_written differ
              deeper.writtenIn.to_reflTransGen other_deeper.writtenIn.to_reflTransGen
          rw [induction (wf.lt_child apart written).2 other_deeper]

/-- No two declarations come before each other. -/
theorem precedes_asymm (wf : tree.WellFormed) (before : tree.Precedes root first second) :
    ¬tree.Precedes root second first := by
  rintro ⟨path, other, second_way, first_way, lt⟩
  obtain ⟨first_path, second_path, first_found, second_found, before_lt⟩ := before
  rw [wf.way_unique wf.root_apart second_way second_found,
    wf.way_unique wf.root_apart first_way first_found] at lt
  exact List.lt_asymm before_lt lt

end WellFormed

/-- A walk meets declarations in source order. -/
theorem Grown.pairwise_below (grown : tree.Grown) :
    (tree.below enter fuel outer).Pairwise (tree.Precedes outer) := by
  induction fuel generalizing outer with
  | zero => exact .nil
  | succ fuel induction =>
      have way {child met : NodeId} (written : child ∈ tree.children outer) (listed : met ∈ child ::
          if (tree.node? child).any enter then tree.below enter fuel child else []) :
          ∃ path, tree.Way outer (child :: path) met := by
        rcases List.mem_cons.mp listed with rfl | deeper
        · exact ⟨[], .last written⟩
        · split at deeper
          · obtain ⟨path, inwards⟩ := exists_way_of_mem_below deeper
            exact ⟨path, .step written inwards⟩
          · cases deeper
      refine List.pairwise_flatMap.mpr ⟨fun child written => List.pairwise_cons.mpr ?_, ?_⟩
      · split
        · constructor
          · intro met deeper
            obtain ⟨path, inwards⟩ := exists_way_of_mem_below deeper
            refine ⟨[child], child :: path, .last written, .step written inwards, ?_⟩
            cases inwards <;> exact List.cons_lt_cons_iff.mpr (.inr ⟨rfl, List.nil_lt_cons ..⟩)
          · refine induction.imp fun ⟨path, other, first_way, second_way, lt⟩ => ?_
            exact ⟨_, _, .step written first_way, .step written second_way,
              List.cons_lt_cons_iff.mpr (.inr ⟨rfl, lt⟩)⟩
        · exact ⟨fun _ none => absurd none List.not_mem_nil, .nil⟩
      · apply (grown.pairwise_children outer).imp_of_mem
        intro left right left_written right_written lt first in_left second in_right
        obtain ⟨path, first_way⟩ := way left_written in_left
        obtain ⟨other, second_way⟩ := way right_written in_right
        exact ⟨_, _, first_way, second_way, List.cons_lt_cons_iff.mpr (.inl lt)⟩

theorem Grown.pairwise_walk (grown : tree.Grown) :
    (tree.walk enter).Pairwise (tree.Precedes root) :=
  grown.pairwise_below

end Tree
end Decl
end HeaderBinding
