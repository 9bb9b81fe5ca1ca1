import HeaderBinding.Proofs.Clang.Growth
import HeaderBinding.Proofs.Decl.Order

/-!
# Scopes of what is read lead to the header

A document may use a mark twice, may let a node name its own mark as the one of its scope, and may
name marks that no node has. Whatever it does, a mark stands for a declaration that was read before,
and no declaration is moved into itself. So the tree that is read is in order. Main statement:
`lineages_treeOf`.
-/

namespace HeaderBinding
namespace Clang

open Decl (NodeId Tree)

/-- The tree is in order, and marks stand for what is in it. -/
structure State.Ordered (state : State) : Prop where
  tree : state.tree.Ordered
  known : ∀ {key : String} {id : NodeId}, state.scopes[key]? = some id → id < state.tree.size

section

variable {all : List Node} {state : State} {fields : Fields} {parent id : NodeId}
  {node : Decl.Node} {before after : Reader}

namespace State.Ordered

theorem mark (ordered : state.Ordered) (known : id < state.tree.size) (fields : Fields) :
    (state.mark fields id).Ordered where
  tree := (tree_mark state fields id).symm ▸ ordered.tree
  known {key other} found := by
    rw [size_mark]
    rw [scopes_mark] at found
    split at found
    · exact Option.some.inj found ▸ known
    · exact ordered.known found

/-- The scope that a new declaration is moved to is an old one, or the declaration itself if its
node names its own mark; then it stays where it is. -/
theorem add (ordered : state.Ordered) (inside : parent < state.tree.size)
    (noUnit : node.kind ≠ .unit) (fields : Fields) : (state.add parent node fields).Ordered := by
  have known {key : String} {id : NodeId}
      (found : (state.add parent node fields).scopes[key]? = some id) : id ≤ state.tree.size := by
    rw [scopes_add] at found
    split at found
    · exact Nat.le_of_eq (Option.some.inj found).symm
    · exact Nat.le_of_lt (ordered.known found)
  have pushed := ordered.tree.push inside noUnit
  have apart : state.tree.size ≠ Tree.root := Nat.ne_of_gt ordered.tree.size_pos
  refine ⟨?_, fun found => size_add ▸ Nat.lt_succ_of_le (known found)⟩
  rcases state.add_cases parent node fields with ⟨key, scope, -, -, found, tree_eq⟩ | ⟨tree_eq, -⟩
  · rw [tree_eq]
    exact pushed.setScope apart (known found)
  · rwa [tree_eq]

end State.Ordered

theorem Step.ordered (step : Step all before after)
    (size : before.state.tree.size = before.done.length) (ordered : before.state.Ordered) :
    after.state.Ordered := by
  cases step with
  | pass => exact ⟨ordered.tree, ordered.known⟩
  | add node _ _ _ _ noUnit inside _ => exact ordered.add inside noUnit _
  | close found _ _ _ => exact ordered.mark (size ▸ (List.getElem?_eq_some_iff.mp found).1) _

theorem Steps.ordered (steps : Steps all before after)
    (size : before.state.tree.size = before.done.length) (ordered : before.state.Ordered) :
    after.state.Ordered := by
  induction steps with
  | refl => exact ordered
  | tail first step ordered => exact step.ordered (Steps.size first size) ordered

end

theorem ordered_treeOf {document : Json.Value} {mainFile : String} {tree : Tree}
    (read : treeOf document mainFile = .ok tree) : tree.Ordered := by
  obtain ⟨start, after, made, empty, scopes, steps⟩ :=
    steps_treeOf mainFile (isUnit_of_treeOf read)
  obtain rfl := Except.ok.inj (made.symm.trans read)
  have begin : State.Ordered { tree := .empty } :=
    ⟨.empty, fun found => nomatch found.symm.trans Std.ExtTreeMap.getElem?_empty⟩
  have marked := begin.mark Nat.zero_lt_one (Fields.ofValue document)
  have ordered : start.Ordered := by
    refine ⟨empty ▸ .empty, fun found => ?_⟩
    rw [scopes] at found
    have below := marked.known found
    rw [State.size_mark] at below
    rwa [empty]
  have size : start.tree.size = 1 := by rw [empty]; rfl
  exact (steps.ordered size ordered).tree

/-- In the tree of a document every declaration is written in one with a smaller number and belongs
to one with a smaller number. So scopes lead from everywhere to the header, and qualified names hold
the names of all that are met on the way. -/
theorem lineages_treeOf {document : Json.Value} {mainFile : String} {tree : Tree}
    (read : treeOf document mainFile = .ok tree) :
    (∀ id, id < tree.size → id ≠ Tree.root →
      (∃ outer, outer < id ∧ ∀ other, id ∈ tree.children other ↔ other = outer) ∧
        ∃ scope, scope < id ∧ tree.scope? id = some scope) ∧
    tree.scope? Tree.root = none ∧
    ∀ id, id < tree.size → ∃ ids, tree.Lineage id ids ∧ ids.getLast? = some Tree.root ∧
      ids.Pairwise (· > ·) ∧ (∀ fuel, tree.size ≤ fuel → tree.scopeNames fuel id = tree.spelled ids) ∧
      tree.qualifiedName id = "::".intercalate (tree.spelled ids) := by
  have ordered := ordered_treeOf read
  have wf := (grown_of_treeOf read).wellFormed
  refine ⟨fun id known apart => ⟨?_, ordered.descends id known apart⟩, ordered.scope?_root,
    fun id known => ?_⟩
  · obtain ⟨outer, before, written⟩ := ordered.written known apart
    refine ⟨outer, before, fun other => ⟨fun again => wf.parent_unique again written, ?_⟩⟩
    rintro rfl
    exact written
  · obtain ⟨ids, lineage, ends, decreasing, names⟩ := ordered.exists_lineage known
    exact ⟨ids, lineage, ends, decreasing, names, lineage.qualifiedName_eq⟩

/-- A record with the given marks, its own and that of its scope. -/
def knot (name mark scopeMark : String) (inner : List Json.Value) : Json.Value :=
  .object [("id", .string mark), ("kind", .string "CXXRecordDecl"), ("name", .string name),
    ("parentDeclContextId", .string scopeMark), ("inner", .array inner)]

/-- A header with records that name themselves, each other, the template around them and nothing. -/
def knottedHeader : Json.Value :=
  .object [("id", .string "0x1"), ("kind", .string "TranslationUnitDecl"), ("inner", .array [
    knot "A" "0x2" "0x2" [knot "B" "0x2" "0x2" []],
    knot "C" "0x3" "0x9" [],
    .object [("id", .string "0x4"), ("kind", .string "ClassTemplateDecl"),
      ("inner", .array [knot "D" "0x1" "0x2" [knot "E" "0x5" "0x4" []]])],
    knot "F" "0x6" "0x4" []])]

theorem lineage_knottedHeader : ∃ tree, treeOf knottedHeader "knots.h" = .ok tree ∧
    (List.range tree.size).map tree.scope? =
      [none, some 0, some 1, some 0, some 2, some 4, some 4] ∧
    tree.qualifiedName 6 = "A::B::D::F" ∧
    ∃ ids, tree.Lineage 6 ids ∧ ids.getLast? = some Tree.root := by
  have computed : (treeOf knottedHeader "knots.h").toOption.map (fun tree =>
      ((List.range tree.size).map tree.scope?, tree.qualifiedName 6)) =
        some ([none, some 0, some 1, some 0, some 2, some 4, some 4], "A::B::D::F") := by
    decide +kernel
  cases read : treeOf knottedHeader "knots.h" with
  | error fault =>
      rw [read] at computed
      cases computed
  | ok tree =>
      rw [read] at computed
      obtain ⟨scopes, name⟩ := Prod.mk.inj (Option.some.inj computed)
      have size : tree.size = 7 := by
        simpa using congrArg List.length scopes
      obtain ⟨-, -, lineages⟩ := lineages_treeOf read
      obtain ⟨ids, lineage, ends, -⟩ := lineages 6 (by rw [size]; decide)
      exact ⟨tree, rfl, scopes, name, ids, lineage, ends⟩

end Clang
end HeaderBinding
