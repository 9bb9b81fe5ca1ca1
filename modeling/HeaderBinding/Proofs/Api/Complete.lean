import HeaderBinding.Proofs.Api.Site
import HeaderBinding.Proofs.Registry.Declared

/-!
# Classes that are defined somewhere

Types and classes are found by two walks with different rules. They agree on which classes have a
body: a class is complete if and only if some header defines a record with its name, wherever that
definition stands, unless the name is also that of an enum.
-/

namespace HeaderBinding

open Decl (Access Flags NodeId Node Tree)

/-- The headers declare no name both as a record and as an enum. -/
def KindsApart (trees : List Tree) : Prop :=
  ∀ tree ∈ trees, ∀ id node, tree.DeclaresType id node → node.kind.isRecord →
    ∀ other ∈ trees, ∀ number twin, other.DeclaresType number twin → twin.kind = .enum →
      tree.qualifiedName id ≠ other.qualifiedName number

/-- A header defines a record with the name. -/
def IsDefined (trees : List Tree) (name : String) : Prop :=
  ∃ tree ∈ trees, ∃ id node, tree.DeclaresType id node ∧ node.kind.isRecord ∧
    tree.qualifiedName id = name ∧ node.flags.definition

namespace Registry

theorem Entry.settled_of_record {history : List Entry} {complete : Bool}
    (declared : record complete ∈ history) (apart : ∀ enumerators, enum enumerators ∉ history) :
    settled history = some (record (history.contains (record true))) := by
  have leads : leadingKind? history = some .record := by
    cases led : leadingKind? history with
    | none => exact absurd declared (not_mem_record_of_leadingKind?_none led complete)
    | some kind =>
        cases kind with
        | record => rfl
        | enum =>
            obtain ⟨entry, member, kind⟩ := List.exists_of_findSome?_eq_some led
            cases entry with
            | enum enumerators => exact absurd member (apart enumerators)
            | _ => simp [typeKind?] at kind
  simp only [settled, leads]

section

variable {trees : List Tree} {name : String}

theorem record_mem_declarationsOf_iff (grown : ∀ tree ∈ trees, tree.Grown) {complete : Bool} :
    .record complete ∈ declarationsOf (trees.flatMap Tree.declared) name ↔
      ∃ tree ∈ trees, ∃ id node, tree.DeclaresType id node ∧ node.kind.isRecord ∧
        tree.qualifiedName id = name ∧ node.flags.definition = complete := by
  rw [mem_declarationsOf_trees_iff grown]
  refine exists_congr fun tree => and_congr_right fun _ => ?_
  refine exists_congr fun id => exists_congr fun node => and_congr_right fun declares => ?_
  rw [Tree.mem_declaredBy_iff, Tree.entryOf?_eq_record_iff]
  constructor
  · rintro (⟨rfl, -, isRecord, body⟩ | ⟨-, -, -, bare⟩)
    · exact ⟨isRecord, rfl, body⟩
    · cases bare
  · rintro ⟨isRecord, rfl, body⟩
    exact .inl ⟨rfl, declares.named, isRecord, body⟩

theorem exists_declaresType_of_enum_mem (grown : ∀ tree ∈ trees, tree.Grown)
    {enumerators : List Enumerator}
    (member : .enum enumerators ∈ declarationsOf (trees.flatMap Tree.declared) name) :
    ∃ tree ∈ trees, ∃ id node, tree.DeclaresType id node ∧ node.kind = .enum ∧
      tree.qualifiedName id = name := by
  obtain ⟨tree, listed, id, node, declares, declared⟩ :=
    (mem_declarationsOf_trees_iff grown).mp member
  rcases Tree.mem_declaredBy_iff.mp declared with ⟨rfl, own⟩ | ⟨-, -, -, bare⟩
  · exact ⟨tree, listed, id, node, declares, Tree.kind_of_entryOf?_eq_enum own, rfl⟩
  · cases bare

/-- The name of a declared record is that of a complete one if and only if it is defined. -/
theorem isCompleteRecord_discover_iff (grown : ∀ tree ∈ trees, tree.Grown)
    (apart : KindsApart trees) (overrides : OverrideTable) {tree : Tree} (listed : tree ∈ trees)
    {id : NodeId} {node : Node} (declares : tree.DeclaresType id node)
    (isRecord : node.kind.isRecord) :
    (discover trees overrides).isCompleteRecord (tree.qualifiedName id) ↔
      IsDefined trees (tree.qualifiedName id) := by
  have declared :
      .record node.flags.definition ∈
        declarationsOf (trees.flatMap Tree.declared) (tree.qualifiedName id) :=
    (record_mem_declarationsOf_iff grown).mpr
      ⟨tree, listed, id, node, declares, isRecord, rfl, rfl⟩
  have no_enum (enumerators : List Enumerator) :
      .enum enumerators ∉
        declarationsOf (trees.flatMap Tree.declared) (tree.qualifiedName id) := by
    intro member
    obtain ⟨other, other_listed, number, twin, twin_declares, isEnum, same⟩ :=
      exists_declaresType_of_enum_mem grown member
    exact apart tree listed id node declares isRecord other other_listed number twin
      twin_declares isEnum same.symm
  rw [isCompleteRecord, discover, find?_finish, find?_foldl_addTree,
    Entry.settled_of_record declared no_enum]
  simp only [Option.some_or, Option.any_some, Entry.isCompleteRecord]
  rw [List.contains_iff_mem, record_mem_declarationsOf_iff grown, IsDefined]

end

end Registry

namespace Api

/-- Every declaration of which a class is made declares a record. -/
theorem declaresType_of_mem_sitesFrom {tree : Tree} {around : List Node} {fuel : Nat} {id : NodeId}
    {node : Node} (declares : tree.DeclaresType id node) (isRecord : node.kind.isRecord)
    {site : Site} (member : site ∈ sitesFrom tree around fuel id node) :
    tree.DeclaresType site.id site.node := by
  induction fuel generalizing around id node with
  | zero => simp [sitesFrom] at member
  | succ fuel induction =>
      rcases List.mem_cons.mp member with rfl | deeper
      · exact declares
      · obtain ⟨⟨child, inner⟩, nested, deeper⟩ := List.mem_flatMap.mp deeper
        obtain ⟨inner_mem, isPublic⟩ := List.mem_filter.mp nested
        obtain ⟨written, found⟩ := Tree.mem_filterMap_node?.mp inner_mem
        simp only [Node.isPublicRecord, Node.isAnonymous, Bool.and_eq_true, Bool.not_eq_true',
          decide_eq_false_iff_not] at isPublic
        have enters : node.isScope := by
          simp [Node.isScope, isRecord]
        refine induction ⟨?_, found, isPublic.1.2, .inr (.inl isPublic.1.1)⟩ isPublic.1.1 deeper
        exact .inside declares.reaches declares.found enters written

theorem declaresType_of_mem_sitesOf {tree : Tree} (wf : tree.WellFormed) {site : Site}
    (member : site ∈ sitesOf tree) : tree.DeclaresType site.id site.node := by
  obtain ⟨⟨id, node⟩, outermost, below⟩ := List.mem_flatMap.mp member
  obtain ⟨entry, candidate⟩ := List.mem_filter.mp outermost
  obtain ⟨reaches, found⟩ := wf.mem_entries_iff.mp entry
  simp only [Node.isCandidate, Node.isAnonymous, Bool.and_eq_true, Bool.not_eq_true',
    decide_eq_false_iff_not] at candidate
  have wide (node : Node) (holds : node.holdsClasses) : node.isScope := by
    cases kind : node.kind <;> simp [Node.holdsClasses, Node.isScope, kind] at holds ⊢
  have declares : tree.DeclaresType id node :=
    ⟨reaches.mono wide, found, candidate.1.2, .inr (.inl candidate.1.1)⟩
  exact declaresType_of_mem_sitesFrom declares candidate.1.1 below

/-- A class is complete if and only if some header defines it, before or after the declaration that
the class is made of and whether or not in a file that it includes. -/
theorem isComplete_iff_isDefined {trees : List Tree} (grown : ∀ tree ∈ trees, tree.Grown)
    (apart : KindsApart trees) (overrides : OverrideTable) {model : Class}
    (listed : model ∈ (scan trees (Registry.discover trees overrides)).classes) :
    (model.isComplete ↔ IsDefined trees model.qualifiedName) ∧
      (model.isDefinition → model.isComplete) := by
  obtain ⟨site, member, rfl⟩ := exists_site_of_mem_classes listed
  obtain ⟨tree_listed, in_tree⟩ := mem_sitesOf_tree member
  have declares := declaresType_of_mem_sitesOf (grown _ tree_listed).wellFormed in_tree
  have isRecord : site.node.kind.isRecord := (mem_sitesOf_cases in_tree).2.2.1
  have complete : (site.model (Registry.discover trees overrides)).isComplete ↔
      IsDefined trees site.qualifiedName :=
    Registry.isCompleteRecord_discover_iff grown apart overrides tree_listed declares isRecord
  refine ⟨complete, fun definition => ?_⟩
  apply complete.mpr
  exact ⟨site.tree, tree_listed, site.id, site.node, declares, isRecord, rfl, definition⟩

/-! ## A class that another header defines -/

/-- A namespace with an enum and a class that is only declared. -/
def declaringTree : Tree :=
  let geo := Tree.empty.push 0 { kind := .namespaceScope, name := "geo" }
  (geo.push 1 { kind := .enum, name := "Axis" }).push 1 { kind := .classType, name := "Point" }

/-- The class is defined in a file that the header includes. -/
def definingTree : Tree :=
  let geo := Tree.empty.push 0 { kind := .namespaceScope, name := "geo" }
  geo.push 1
    { kind := .classType, name := "Point", flags := { definition := true, included := true } }

theorem kindsApart_declaringTree : KindsApart [declaringTree, definingTree] := by
  have apart : ∀ tree ∈ [declaringTree, definingTree], ∀ item ∈ tree.listed,
      item.2.kind.isRecord → ∀ other ∈ [declaringTree, definingTree], ∀ twin ∈ other.listed,
        twin.2.kind = .enum → tree.qualifiedName item.1 ≠ other.qualifiedName twin.1 := by
    decide +kernel
  intro tree listed id node declares isRecord other other_listed number twin twin_declares
  exact apart tree listed (id, node) (Tree.mem_listed declares.found) isRecord other other_listed
    (number, twin) (Tree.mem_listed twin_declares.found)

/-- The class is complete, although the declaration that it is made of has no body. -/
theorem isComplete_point :
    (∀ tree ∈ [declaringTree, definingTree], tree.Grown) ∧
      KindsApart [declaringTree, definingTree] ∧
      ∃ model ∈ (scan [declaringTree, definingTree]
          (Registry.discover [declaringTree, definingTree] ∅)).classes,
        model.qualifiedName = "geo::Point" ∧ model.isDefinition = false ∧ model.isComplete := by
  have grown : ∀ tree ∈ [declaringTree, definingTree], tree.Grown := by
    have first : declaringTree.Grown := by
      iterate 3 refine Tree.Grows.push ?_ (by decide) _
      exact .refl
    have second : definingTree.Grown := by
      iterate 2 refine Tree.Grows.push ?_ (by decide) _
      exact .refl
    simp [first, second]
  have kept : ∃ model ∈ (scan [declaringTree, definingTree]
      (Registry.discover [declaringTree, definingTree] ∅)).classes,
        model.qualifiedName = "geo::Point" ∧ model.isDefinition = false := by
    decide +kernel
  obtain ⟨model, listed, name_eq, body⟩ := kept
  refine ⟨grown, kindsApart_declaringTree, model, listed, name_eq, body, ?_⟩
  apply (isComplete_iff_isDefined grown kindsApart_declaringTree ∅ listed).1.mpr
  have reaches : definingTree.Reaches Node.isScope 2 :=
    .inside (.top (show 1 ∈ definingTree.children 0 by decide)) rfl rfl (by decide)
  refine ⟨definingTree, by simp, 2, _, ⟨reaches, rfl, by decide, by decide⟩, rfl, ?_, rfl⟩
  rw [name_eq]
  decide +kernel

end Api
end HeaderBinding
