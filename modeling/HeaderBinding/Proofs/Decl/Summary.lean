import HeaderBinding.Proofs.Decl.Tree

/-!
# Summaries of trees

What the declarations of a header are, by number, without their places in each other.
-/

namespace HeaderBinding
namespace Decl

/-- What a declaration is, its name, and whether it comes from another file. -/
structure Summary where
  kind : Kind
  name : String
  included : Bool
  deriving DecidableEq, Repr

/-- The summary of a declaration. -/
def Node.summary (node : Node) : Summary :=
  ⟨node.kind, node.name, node.flags.included⟩

namespace Tree

variable {tree : Tree} {id parent scope : NodeId} {node : Node}

/-- The summaries of all declarations, the header itself being the first. -/
def summaries (tree : Tree) : List Summary :=
  tree.nodes.toList.map Node.summary

theorem getElem?_summaries (tree : Tree) (id : NodeId) :
    tree.summaries[id]? = (tree.node? id).map Node.summary := by
  rw [summaries, List.getElem?_map, Array.getElem?_toList, node?]

@[simp]
theorem length_summaries : tree.summaries.length = tree.size := by
  rw [summaries, List.length_map, Array.length_toList, size]

@[simp]
theorem summaries_push : (tree.push parent node).summaries = tree.summaries ++ [node.summary] := by
  let added : Tree := ⟨tree.nodes.push { node with scope? := some parent, children := #[] }⟩
  have same : (tree.push parent node).summaries = added.summaries := by
    apply List.ext_getElem?
    intro id
    rw [getElem?_summaries, getElem?_summaries]
    apply map_getElem?_modify
    intro outer
    rfl
  rw [same]
  simp [added, summaries, Node.summary]

@[simp]
theorem summaries_setScope : (tree.setScope id scope).summaries = tree.summaries := by
  apply List.ext_getElem?
  intro other
  rw [getElem?_summaries, map_node?_setScope Node.summary (fun _ _ => rfl), getElem?_summaries]

end Tree
end Decl
end HeaderBinding
