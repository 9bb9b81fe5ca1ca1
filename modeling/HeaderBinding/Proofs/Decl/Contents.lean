import HeaderBinding.Proofs.Decl.Tree
import Mathlib.Data.List.Basic

/-!
# What is written in a declaration

The declarations written in another one, reduced to what they are, their names and their values.
Only the declaration that a new one is added to gets more of them.
-/

namespace HeaderBinding
namespace Decl

/-- What a declaration is, its name, and its value if it is a constant that has one. -/
structure Content where
  kind : Kind
  name : String
  value? : Option Int
  deriving DecidableEq, Repr

/-- The declaration without its place among the others. -/
def Node.content (node : Node) : Content :=
  ⟨node.kind, node.name, node.value?⟩

namespace Tree

variable {tree : Tree} {id parent scope : NodeId} {node : Node}

/-- What is written in a declaration, in order. -/
def contents (tree : Tree) (id : NodeId) : List Content :=
  (tree.children id).filterMap fun child => (tree.node? child).map Node.content

theorem contents_of_size_le (outside : tree.size ≤ id) : tree.contents id = [] := by
  rw [contents, children_of_size_le outside, List.filterMap_nil]

@[simp]
theorem contents_setScope (other : NodeId) :
    (tree.setScope id scope).contents other = tree.contents other := by
  have same := @map_node?_setScope tree id scope _ Node.content fun _ _ => rfl
  rw [contents, children_setScope, contents]
  exact List.filterMap_congr fun child _ => same child

theorem map_content_node?_push (known : id < tree.size) :
    ((tree.push parent node).node? id).map Node.content = (tree.node? id).map Node.content := by
  simp only [node?_push, if_neg (Nat.ne_of_lt known)]
  split
  · rw [Option.map_map]
    rfl
  · rfl

/-- A new declaration comes last in the one that it is written in. -/
theorem contents_push (wf : tree.WellFormed) (inside : parent < tree.size) (id : NodeId) :
    (tree.push parent node).contents id =
      tree.contents id ++ if parent = id then [node.content] else [] := by
  have before : (tree.children id).filterMap (fun child =>
      ((tree.push parent node).node? child).map Node.content) = tree.contents id :=
    List.filterMap_congr fun child written => map_content_node?_push (wf.child_lt_size written)
  rw [contents, children_push (Nat.le_of_lt inside), List.filterMap_append, before]
  split
  · have added : ((tree.push parent node).node? tree.size).map Node.content =
        some node.content := by
      simp [node?_push, Nat.ne_of_lt inside, Node.content]
    simp [added]
  · rfl

end Tree
end Decl
end HeaderBinding
