import HeaderBinding.Proofs.Classification.Cycle
import HeaderBinding.Proofs.Registry.Declared

/-!
# Types named without their scope

Inside a scope its types are named without it. As long as a bare name belongs to one type only, it
is classified as the qualified name of that type is, whatever kind of type it is and wherever its
other names lead.
-/

namespace HeaderBinding

open Decl (NodeId Node Tree)

namespace Decl
namespace Tree

theorem mem_intercalate {sep piece : List Char} {pieces : List (List Char)} {c : Char}
    (member : piece ∈ pieces) (inside : c ∈ piece) : c ∈ sep.intercalate pieces := by
  induction pieces with
  | nil => simp at member
  | cons first rest induction =>
      cases rest with
      | nil =>
          obtain rfl := List.mem_singleton.mp member
          simpa [List.intercalate] using inside
      | cons second rest =>
          have parts : sep.intercalate (first :: second :: rest) =
              first ++ (sep ++ sep.intercalate (second :: rest)) := by
            simp [List.intercalate]
          rw [parts, List.mem_append, List.mem_append]
          rcases List.mem_cons.mp member with rfl | later
          · exact .inl inside
          · exact .inr (.inr (induction later))

/-- The qualified name of a type holds its bare name. -/
theorem DeclaresType.mem_qualifiedName {tree : Tree} {id : NodeId} {node : Node}
    (declares : tree.DeclaresType id node) {c : Char} (inside : c ∈ node.name.toList) :
    c ∈ (tree.qualifiedName id).toList := by
  have kind : node.kind ≠ .unit := by
    intro header
    simpa [header, Kind.isAlias, Kind.isRecord] using declares.isType
  rw [qualifiedName, String.toList_intercalate]
  apply mem_intercalate _ inside
  apply List.mem_map_of_mem
  simp [scopeNames, declares.found, kind, declares.named]

/-- The type belongs to a scope, no other type has its bare name, and no type has that name without
a scope. -/
structure IsSoleSibling (tree : Tree) (trees : List Tree) (id : NodeId) (node : Node) : Prop where
  declares : tree.DeclaresType id node
  qualified : node.name ≠ tree.qualifiedName id
  sole : ∀ other ∈ trees, ∀ number twin, other.DeclaresType number twin →
    twin.name = node.name → other.qualifiedName number = tree.qualifiedName id
  free : ∀ other ∈ trees, ∀ number twin, other.DeclaresType number twin →
    other.qualifiedName number ≠ node.name

end Tree
end Decl

namespace Registry

variable {trees : List Tree} {tree : Tree} {id : NodeId} {node : Node}

theorem Entry.settled_of_scopeAlias {history : List Entry} {qualified : String}
    (declared : history ≠ []) (all : ∀ entry ∈ history, entry = scopeAlias qualified) :
    settled history = some (scopeAlias qualified) := by
  have kindless : leadingKind? history = none := by
    rw [leadingKind?, List.findSome?_eq_none_iff]
    intro entry member
    rw [all entry member]
    rfl
  have no_synonym : ¬history.any isSynonym := by
    rw [List.any_eq_true]
    rintro ⟨entry, member, synonym⟩
    simp [all entry member, isSynonym] at synonym
  rw [settled_of_none kindless, if_neg no_synonym]
  cases history with
  | nil => exact absurd rfl declared
  | cons first rest =>
      simp only [all first List.mem_cons_self, List.findSome?_cons, scopeTarget?, Option.map_some]

/-- The bare name stands for the qualified one. -/
theorem find?_discover_of_isSoleSibling (grown : ∀ tree ∈ trees, tree.Grown)
    (overrides : OverrideTable) (listed : tree ∈ trees)
    (sibling : tree.IsSoleSibling trees id node) :
    (discover trees overrides).find? node.name =
      some (.scopeAlias (tree.qualifiedName id)) := by
  have typed : tree.entryOf? id node ≠ none := by
    rw [ne_eq, Tree.entryOf?_eq_none_iff]
    simp [sibling.declares.named, sibling.declares.isType]
  have bare : .scopeAlias (tree.qualifiedName id) ∈
      declarationsOf (trees.flatMap Tree.declared) node.name := by
    apply (mem_declarationsOf_trees_iff grown).mpr
    refine ⟨tree, listed, id, node, sibling.declares, Tree.mem_declaredBy_iff.mpr (.inr ?_)⟩
    exact ⟨rfl, sibling.qualified, typed, rfl⟩
  have all : ∀ entry ∈ declarationsOf (trees.flatMap Tree.declared) node.name,
      entry = .scopeAlias (tree.qualifiedName id) := by
    intro entry member
    obtain ⟨other, other_listed, number, twin, declares, declared⟩ :=
      (mem_declarationsOf_trees_iff grown).mp member
    rcases Tree.mem_declaredBy_iff.mp declared with ⟨same, -⟩ | ⟨same, -, -, rfl⟩
    · exact absurd same.symm (sibling.free other other_listed number twin declares)
    · rw [sibling.sole other other_listed number twin declares same.symm]
  rw [discover, find?_finish, find?_foldl_addTree,
    Entry.settled_of_scopeAlias (List.ne_nil_of_mem bare) all]
  rfl

end Registry

namespace TypeScope

open Text

/-- A bare name that belongs to one type only is classified as the qualified name of the type. Names
are made of identifiers, so that they hold no blanks. -/
theorem unspelled_classify_bare {trees : List Tree} (grown : ∀ tree ∈ trees, tree.Grown)
    {tree : Tree} (listed : tree ∈ trees) {id : NodeId} {node : Node}
    (spelled : ∀ c ∈ (tree.qualifiedName id).toList, ¬isBlank c)
    (sibling : tree.IsSoleSibling trees id node)
    (settles : Settles (Registry.discover trees ∅) 19 (tree.qualifiedName id)) :
    ((⟨Registry.discover trees ∅, ∅⟩ : TypeScope).classify node.name).unspelled =
      ((⟨Registry.discover trees ∅, ∅⟩ : TypeScope).classify (tree.qualifiedName id)).unspelled := by
  have stands : (Registry.discover trees ∅).target? node.name = some (tree.qualifiedName id) := by
    rw [Registry.target?, Registry.find?_discover_of_isSoleSibling grown ∅ listed sibling]
    rfl
  have named : node.name ≠ "" := sibling.declares.named
  have bare_spelled : ∀ c ∈ node.name.toList, ¬isBlank c :=
    fun c inside => spelled c (sibling.declares.mem_qualifiedName inside)
  have qualified_ne : tree.qualifiedName id ≠ "" := by
    intro absent
    obtain ⟨c, inside⟩ := List.exists_mem_of_ne_nil _ (mt String.toList_eq_nil_iff.mp named)
    have := sibling.declares.mem_qualifiedName inside
    simp [absent] at this
  have unmapped (name : String) : (∅ : OverrideTable)[name]? = none := Std.ExtTreeMap.getElem?_empty
  exact unspelled_classify_of_link (Shape.trimmed_of_not_isBlank bare_spelled) named
    (Shape.trimmed_of_not_isBlank spelled) qualified_ne (unmapped _) (unmapped _) stands settles

/-- A namespace with a class and an alias that names the class without the namespace. -/
def handleTree : Tree :=
  let geo := Tree.empty.push 0 { kind := .namespaceScope, name := "geo" }
  let shape := geo.push 1 { kind := .classType, name := "Shape", flags := { definition := true } }
  shape.push 1 { kind := .typedef, name := "Handle", type? := some (.plain "Shape") }

/-- The alias in the tree. -/
def handleNode : Node :=
  { kind := .typedef, name := "Handle", type? := some (.plain "Shape"), scope? := some 1 }

theorem isSoleSibling_handle : handleTree.IsSoleSibling [handleTree] 3 handleNode := by
  have others : ∀ other ∈ [handleTree], ∀ item ∈ other.listed,
      (item.2.name = "Handle" → other.qualifiedName item.1 = handleTree.qualifiedName 3) ∧
        other.qualifiedName item.1 ≠ "Handle" := by
    decide +kernel
  have reaches : handleTree.Reaches Node.isScope 3 :=
    .inside (.top (show 1 ∈ handleTree.children 0 by decide)) rfl rfl (by decide)
  refine ⟨⟨reaches, rfl, by decide, .inl rfl⟩, by decide +kernel, ?_, ?_⟩
  · intro other listed number twin declares
    exact (others other listed (number, twin) (Tree.mem_listed declares.found)).1
  · intro other listed number twin declares
    exact (others other listed (number, twin) (Tree.mem_listed declares.found)).2

/-- Both names of the alias are classified as the class. -/
theorem classify_handle :
    (∀ tree ∈ [handleTree], tree.Grown) ∧ handleTree.IsSoleSibling [handleTree] 3 handleNode ∧
      Settles (Registry.discover [handleTree] ∅) 19 "geo::Handle" ∧
      (⟨Registry.discover [handleTree] ∅, ∅⟩ : TypeScope).classify "Handle" =
        .recordRef "geo::Shape" true := by
  have grown : ∀ tree ∈ [handleTree], tree.Grown := by
    have pushed : handleTree.Grown := by
      iterate 3 refine Tree.Grows.push ?_ (by decide) _
      exact .refl
    simpa using pushed
  have name_eq : handleTree.qualifiedName 3 = "geo::Handle" := by
    decide +kernel
  have settles : Settles (Registry.discover [handleTree] ∅) 19 (handleTree.qualifiedName 3) := by
    have alias_stands :
        (Registry.discover [handleTree] ∅).target? (handleTree.qualifiedName 3) =
          some "Shape" := by
      decide +kernel
    have bare_stands :
        (Registry.discover [handleTree] ∅).target? "Shape" = some "geo::Shape" := by
      decide +kernel
    have final : (Registry.discover [handleTree] ∅).target? "geo::Shape" = none := by
      decide +kernel
    exact ⟨2, by decide, .inl ⟨"geo::Shape", .link alias_stands (.link bare_stands (.last final))⟩⟩
  have spelled : ∀ c ∈ (handleTree.qualifiedName 3).toList, ¬isBlank c := by
    have unspaced : "geo::Handle".toList.all fun c => !isBlank c := by
      decide
    rw [name_eq]
    simpa using unspaced
  have alike :=
    unspelled_classify_bare grown List.mem_cons_self spelled isSoleSibling_handle settles
  have qualified : (⟨Registry.discover [handleTree] ∅, ∅⟩ : TypeScope).classify
      (handleTree.qualifiedName 3) = .recordRef "geo::Shape" true := by
    decide +kernel
  refine ⟨grown, isSoleSibling_handle, name_eq ▸ settles, ?_⟩
  rw [qualified] at alike
  exact Classification.eq_of_unspelled_eq alike rfl

end TypeScope
end HeaderBinding
