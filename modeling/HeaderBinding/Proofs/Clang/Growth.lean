import HeaderBinding.Clang.Tool
import HeaderBinding.Proofs.Clang.Steps

/-!
# Growth of the tree that is read

Whatever a syntax tree holds, the declarations that are read of it make a grown tree: each of them
is added inside one that was added before. Main statement: `grown_trees_readAll`, what is shown of
grown trees holds of all headers that are read.
-/

namespace HeaderBinding
namespace Clang

open Decl (NodeId Tree)

theorem State.grows_add {state : State} {parent : NodeId} (inside : parent ≤ state.tree.size)
    (node : Decl.Node) (fields : Fields) :
    state.tree.Grows (state.add parent node fields).tree := by
  have pushed : state.tree.Grows (state.tree.push parent node) :=
    Tree.Grows.refl.push inside node
  rcases state.add_cases parent node fields with ⟨_, scope, -, -, -, tree_eq⟩ | ⟨tree_eq, -⟩
  · rw [tree_eq]
    exact pushed.setScope _ _
  · rwa [tree_eq]

/-- With each step the tree grows or stays as it is. -/
theorem Step.grows {all : List Node} {before after : Reader} (step : Step all before after) :
    before.state.tree.Grows after.state.tree := by
  cases step with
  | pass => exact .refl
  | add node _ _ _ _ _ inside _ => exact State.grows_add (Nat.le_of_lt inside) node _
  | close =>
      rw [tree_mark]
      exact .refl

theorem Steps.grows {all : List Node} {before after : Reader} (steps : Steps all before after) :
    before.state.tree.Grows after.state.tree := by
  induction steps with
  | refl => exact .refl
  | tail _ step grows => exact grows.trans step.grows

theorem isUnit_of_treeOf {document : Json.Value} {mainFile : String} {tree : Tree}
    (read : treeOf document mainFile = .ok tree) :
    document.textField? "kind" = some "TranslationUnitDecl" := by
  have kind : (Fields.ofValue document).kind = "TranslationUnitDecl" := by
    by_contra other
    rw [treeOf, ofValue_eq, treeOfNode, Node.fields, if_pos other] at read
    cases read
  cases found : document.textField? "kind" with
  | none => simp [Fields.ofValue, found] at kind
  | some own => simpa [Fields.ofValue, found] using kind

theorem grown_of_treeOf {document : Json.Value} {mainFile : String} {tree : Tree}
    (read : treeOf document mainFile = .ok tree) : tree.Grown := by
  obtain ⟨start, after, made, empty, -, steps⟩ := steps_treeOf mainFile (isUnit_of_treeOf read)
  obtain rfl := Except.ok.inj (made.symm.trans read)
  have grows : start.tree.Grows after.tree := steps.grows
  rwa [empty] at grows

theorem grown_of_declarationsOf {header : String} {reply : Reply} {tree : Tree}
    (read : Tool.declarationsOf header reply = .ok tree) : tree.Grown := by
  unfold Tool.declarationsOf at read
  split at read
  · split at read
    · rename_i made
      cases read
      exact grown_of_treeOf made
    · cases read
  · split at read <;> cases read

theorem grown_of_frontEnd {tool : Tool} {fs : FileSystem} {header : String} {tree : Tree}
    (read : tool.frontEnd fs header = .ok tree) : tree.Grown := by
  unfold Tool.frontEnd at read
  split at read
  · exact grown_of_declarationsOf read
  · cases read
  · cases read

/-- The tree of every header that clang reads is grown. -/
theorem grown_trees_readAll (tool : Tool) (fs : FileSystem) (paths : List String) :
    ∀ tree ∈ ((tool.frontEnd fs).readAll paths).trees, tree.Grown := by
  induction paths with
  | nil => simp [FrontEnd.readAll, HeaderSet.trees]
  | cons path rest induction =>
      rw [FrontEnd.readAll]
      cases read : tool.frontEnd fs path with
      | error error => exact induction
      | ok tree =>
          intro other listed
          rcases List.mem_cons.mp listed with rfl | later
          · exact grown_of_frontEnd read
          · exact induction other later

end Clang
end HeaderBinding
