import HeaderBinding.Proofs.Api.Site

/-!
# Classes that are not for everyone

A class that is declared private or protected inside another one is left out where it is written in
that class. Out of line it stands among namespaces, where nobody looks at who may use it, so it is
taken for a class like any other.
-/

namespace HeaderBinding

namespace Decl

/-- The declaration belongs to a class with the given name. -/
def Tree.isMemberOf (tree : Tree) (id : NodeId) (outer : String) : Bool :=
  (tree.scope? id).any fun scope =>
    (tree.node? scope).any (·.kind.isRecord) && tree.qualifiedName scope = outer

/-- A class is declared inside another one, where not everyone may use it. -/
structure Tree.Hides (tree : Tree) (outer id : NodeId) (node : Node) : Prop where
  inRecord : ∃ around, tree.node? outer = some around ∧ around.kind.isRecord
  written : (id, node) ∈ tree.members outer
  isRecord : node.kind.isRecord
  named : ¬node.isAnonymous
  hidden : node.access = .isPrivate ∨ node.access = .isProtected

end Decl

namespace Api

open Decl (Access NodeId Node Tree)

/-- No other class has the name of a member of `outer`: whatever is declared with this name for
everyone or among namespaces is that member, out of line or with the same access. -/
def Unshared (trees : List Tree) (outer name : String) (access : Access) : Prop :=
  ∀ tree ∈ trees, ∀ item ∈ tree.listed,
    item.2.kind.isRecord ∧ tree.qualifiedName item.1 = name ∧
        (item.2.access = .isPublic ∨ item ∈ tree.entries Node.holdsClasses) →
      tree.isMemberOf item.1 outer ∧
        (item ∈ tree.entries Node.holdsClasses ∨ item.2.access = access)

instance (trees : List Tree) (outer name : String) (access : Access) :
    Decidable (Unshared trees outer name access) :=
  inferInstanceAs (Decidable (∀ tree ∈ trees, ∀ item ∈ tree.listed, _ → _))

/-- The class is a member of another one, but declared among namespaces. -/
def Site.IsOutOfLine (site : Site) (outer : String) : Prop :=
  (site.id, site.node) ∈ site.tree.entries Node.holdsClasses ∧ site.tree.isMemberOf site.id outer

theorem isOutOfLine_of_unshared {trees : List Tree} {outer name : String} {access : Access}
    (unshared : Unshared trees outer name access) (hidden : access ≠ .isPublic) {site : Site}
    (member : site ∈ trees.flatMap sitesOf) (name_eq : site.qualifiedName = name) :
    site.IsOutOfLine outer := by
  obtain ⟨listed, in_tree⟩ := mem_sitesOf_tree member
  obtain ⟨-, found, isRecord, opened⟩ := mem_sitesOf_cases in_tree
  obtain ⟨belongs, entry | same⟩ :=
    unshared _ listed _ (Tree.mem_listed found) ⟨isRecord, name_eq, opened.symm⟩
  · exact ⟨entry, belongs⟩
  · rcases opened with entry | isPublic
    · exact ⟨entry, belongs⟩
    · exact absurd (same.symm.trans isPublic) hidden

/-- No class of the headers has the name of one that is not for everyone if and only if no header
declares that one out of line or a later class takes its flat identifier. -/
theorem hidden_unwrapped_iff (trees : List Tree) (registry : Registry) {tree : Tree}
    {outer id : NodeId} {node : Node} (hides : tree.Hides outer id node)
    (unshared : Unshared trees (tree.qualifiedName outer) (tree.qualifiedName id) node.access) :
    (∀ model ∈ (scan trees registry).classes, model.qualifiedName ≠ tree.qualifiedName id) ↔
      (∀ site ∈ trees.flatMap sitesOf, site.qualifiedName = tree.qualifiedName id →
          ¬site.IsOutOfLine (tree.qualifiedName outer)) ∨
        ∃ other, lastName? trees (Identifier.flat (tree.qualifiedName id)) = some other ∧
          other ≠ tree.qualifiedName id := by
  have hidden : node.access ≠ .isPublic := by
    rcases hides.hidden with access | access <;> simp [access]
  have absent : (∀ model ∈ (scan trees registry).classes,
      model.qualifiedName ≠ tree.qualifiedName id) ↔
        lastName? trees (Identifier.flat (tree.qualifiedName id)) ≠
          some (tree.qualifiedName id) := by
    rw [ne_eq, ← @exists_mem_classes_iff trees registry, not_exists]
    simp only [not_and, ne_eq]
  rw [absent]
  constructor
  · intro displaced
    by_cases declared : ∃ site ∈ trees.flatMap sitesOf,
        site.qualifiedName = tree.qualifiedName id ∧ site.IsOutOfLine (tree.qualifiedName outer)
    · -- A site with the identifier means that some class is the last one with it.
      obtain ⟨site, member, name_eq, -⟩ := declared
      obtain ⟨other, last⟩ := exists_lastName?_of_mem member
      rw [Site.flatName, name_eq] at last
      exact .inr ⟨other, last, fun same => displaced (last.trans (congrArg some same))⟩
    · exact .inl fun site member name_eq outside => declared ⟨site, member, name_eq, outside⟩
  · rintro (undeclared | ⟨other, last, differs⟩) own
    · obtain ⟨site, member, name_eq⟩ := exists_site_of_lastName? own
      exact undeclared site member name_eq
        (isOutOfLine_of_unshared unshared hidden member name_eq)
    · exact differs (Option.some.inj (last.symm.trans own))

/-! ## A class with a private part -/

/-- A class. -/
def shapeNode : Node :=
  { kind := .classType, name := "Shape", flags := { definition := true } }

/-- A declaration of the part of the class. -/
def implNode (access : Access) (definition : Bool) : Node :=
  { kind := .struct, name := "Impl", access, flags := { definition } }

/-- The part is written inside the class. -/
def insideTree : Tree :=
  (Tree.empty.push 0 shapeNode).push 1 (implNode .isPrivate true)

/-- The part is declared inside the class and defined out of line. -/
def outsideTree : Tree :=
  (((Tree.empty.push 0 shapeNode).push 1 (implNode .isPrivate false)).push 0
    (implNode .unspecified true)).setScope 3 1

theorem hides_insideTree :
    insideTree.Hides 1 2 { implNode .isPrivate true with scope? := some 1 } where
  inRecord := ⟨{ shapeNode with scope? := some 0, children := #[2] }, by decide +kernel, rfl⟩
  written := by decide +kernel
  isRecord := rfl
  named := by decide
  hidden := .inl rfl

/-- A part that is written inside the class is left out. -/
theorem impl_unwrapped :
    Unshared [insideTree] "Shape" "Shape::Impl" .isPrivate ∧
      ∀ model ∈ (scan [insideTree] (Registry.discover [insideTree] ∅)).classes,
        model.qualifiedName ≠ "Shape::Impl" := by
  have outer : insideTree.qualifiedName 1 = "Shape" := by
    decide +kernel
  have name : insideTree.qualifiedName 2 = "Shape::Impl" := by
    decide +kernel
  have unshared : Unshared [insideTree] "Shape" "Shape::Impl" .isPrivate := by
    decide +kernel
  have unwrapped := hidden_unwrapped_iff [insideTree] (Registry.discover [insideTree] ∅)
    hides_insideTree (by rw [outer, name]; exact unshared)
  rw [name] at unwrapped
  have others : ∀ site ∈ [insideTree].flatMap sitesOf, site.qualifiedName ≠ "Shape::Impl" := by
    decide +kernel
  refine ⟨unshared, unwrapped.mpr (.inl fun site member name_eq => ?_)⟩
  exact absurd name_eq (others site member)

/-- A part that is defined out of line is taken for a class of its own. -/
theorem impl_wrapped_out_of_line :
    outsideTree.Hides 1 2 { implNode .isPrivate false with scope? := some 1 } ∧
      outsideTree.qualifiedName 1 = "Shape" ∧ outsideTree.qualifiedName 2 = "Shape::Impl" ∧
      Unshared [outsideTree] "Shape" "Shape::Impl" .isPrivate ∧
      ∃ model ∈ (scan [outsideTree] (Registry.discover [outsideTree] ∅)).classes,
        model.qualifiedName = "Shape::Impl" := by
  have hides : outsideTree.Hides 1 2 { implNode .isPrivate false with scope? := some 1 } :=
    { inRecord :=
        ⟨{ shapeNode with scope? := some 0, children := #[2] }, by decide +kernel, rfl⟩
      written := by decide +kernel
      isRecord := rfl
      named := by decide
      hidden := .inl rfl }
  refine ⟨hides, ?_, ?_, ?_, ?_⟩
  all_goals decide +kernel

end Api
end HeaderBinding
