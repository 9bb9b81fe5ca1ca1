import HeaderBinding.Proofs.Decl.SourceOrder
import HeaderBinding.Proofs.Registry.Discovery

/-!
# Types that headers declare

A type is declared by every named alias, record or enum that lies among scopes. What discovery takes
in is read off these declarations in source order: each of them enters its qualified name and, if
that is another one, its bare name.
-/

namespace HeaderBinding

open Decl (NodeId Node Tree)

namespace Decl

/-- Types may be declared inside: the header, a namespace, a record or a node of another kind. -/
def Node.isScope (node : Node) : Bool :=
  node.kind.isRecord || [Kind.unit, .namespaceScope, .other].contains node.kind

theorem Node.holdsTypes_eq_isScope : Node.holdsTypes = Node.isScope := by
  funext node
  cases kind : node.kind <;> simp [holdsTypes, isScope, Kind.isRecord, kind]

/-- A named alias, record or enum among scopes. -/
structure Tree.DeclaresType (tree : Tree) (id : NodeId) (node : Node) : Prop where
  reaches : tree.Reaches Node.isScope id
  found : tree.node? id = some node
  named : node.name ≠ ""
  isType : node.kind.isAlias ∨ node.kind.isRecord ∨ node.kind = .enum

section

variable {tree : Tree} {id : NodeId} {node : Node}

theorem Tree.entryOf?_eq_none_iff : tree.entryOf? id node = none ↔
    node.name = "" ∨ ¬(node.kind.isAlias ∨ node.kind.isRecord ∨ node.kind = .enum) := by
  by_cases anonymous : node.name = ""
  · simp [entryOf?, Node.isAnonymous, anonymous]
  · cases kind : node.kind <;>
      simp [entryOf?, Node.isAnonymous, anonymous, kind, Kind.isAlias, Kind.isRecord]

theorem Tree.entryOf?_eq_record_iff {complete : Bool} :
    tree.entryOf? id node = some (.record complete) ↔
      node.name ≠ "" ∧ node.kind.isRecord ∧ node.flags.definition = complete := by
  by_cases anonymous : node.name = ""
  · simp [entryOf?, Node.isAnonymous, anonymous]
  · cases kind : node.kind <;>
      simp [entryOf?, Node.isAnonymous, anonymous, kind, Kind.isRecord]

theorem Tree.kind_of_entryOf?_eq_enum {enumerators : List Enumerator}
    (own : tree.entryOf? id node = some (.enum enumerators)) : node.kind = .enum := by
  by_cases anonymous : node.name = ""
  · simp [entryOf?, Node.isAnonymous, anonymous] at own
  · cases kind : node.kind <;>
      simp [entryOf?, Node.isAnonymous, anonymous, kind] at own ⊢

theorem Tree.mem_declaredBy_iff {name : String} {entry : Registry.Entry} :
    (name, entry) ∈ tree.declaredBy id node ↔
      (name = tree.qualifiedName id ∧ tree.entryOf? id node = some entry) ∨
        (name = node.name ∧ name ≠ tree.qualifiedName id ∧ tree.entryOf? id node ≠ none ∧
          entry = .scopeAlias (tree.qualifiedName id)) := by
  rw [declaredBy]
  cases own : tree.entryOf? id node with
  | none => simp
  | some own =>
      by_cases bare : node.name = tree.qualifiedName id
      · simp [bare, eq_comm]
        rintro rfl different
        exact absurd rfl different
      · have differs : name = node.name → name ≠ tree.qualifiedName id := by
          rintro rfl
          exact bare
        simp only [bare, if_false, List.mem_cons, Prod.mk.injEq, List.not_mem_nil, or_false]
        grind

theorem Tree.declaredBy_eq_nil_iff : tree.declaredBy id node = [] ↔
    node.name = "" ∨ ¬(node.kind.isAlias ∨ node.kind.isRecord ∨ node.kind = .enum) := by
  rw [← entryOf?_eq_none_iff, declaredBy]
  cases tree.entryOf? id node <;> simp

/-- Items that give nothing may be left out. -/
theorem flatMap_filter_isEmpty {Item Result : Type} (give : Item → List Result)
    (items : List Item) :
    (items.filter fun item => !(give item).isEmpty).flatMap give = items.flatMap give := by
  induction items with
  | nil => rfl
  | cons item items induction =>
      rw [List.flatMap_cons, ← induction, List.filter_cons]
      cases given : give item with
      | nil => rfl
      | cons => simp [given]

/-- The types that a header declares, in source order. -/
structure Tree.ListsTypes (tree : Tree) (types : List (NodeId × Node)) : Prop where
  mem_iff : ∀ id node, (id, node) ∈ types ↔ tree.DeclaresType id node
  ordered : types.Pairwise fun first second => tree.Precedes Tree.root first.1 second.1

/-- There are not two such lists. -/
theorem Tree.ListsTypes.unique {types others : List (NodeId × Node)} (wf : tree.WellFormed)
    (lists : tree.ListsTypes types) (others_list : tree.ListsTypes others) : types = others := by
  have distinct {items : List (NodeId × Node)} (list : tree.ListsTypes items) : items.Nodup := by
    apply list.ordered.imp
    rintro first _ before rfl
    exact wf.precedes_asymm before before
  have same : types.Perm others := by
    apply (List.perm_ext_iff_of_nodup (distinct lists) (distinct others_list)).mpr
    rintro ⟨id, node⟩
    rw [lists.mem_iff, others_list.mem_iff]
  apply same.eq_of_pairwise _ lists.ordered others_list.ordered
  intro first second _ _ before after
  exact absurd after (wf.precedes_asymm before)

/-- The names that a header declares are those of its types, in source order. -/
theorem Tree.Grown.existsUnique_listsTypes (grown : tree.Grown) :
    ∃! types, tree.ListsTypes types ∧
      tree.declared = types.flatMap fun (id, node) => tree.declaredBy id node := by
  let entries := tree.entries Node.isScope
  let declares (item : NodeId × Node) : Bool := !(tree.declaredBy item.1 item.2).isEmpty
  have ordered : entries.Pairwise fun first second => tree.Precedes Tree.root first.1 second.1 := by
    apply List.pairwise_map.mp
    rw [grown.wellFormed.map_fst_entries]
    exact grown.pairwise_walk
  have lists : tree.ListsTypes (entries.filter declares) := by
    refine ⟨fun id node => ?_, ordered.filter _⟩
    rw [List.mem_filter, grown.wellFormed.mem_entries_iff, Bool.not_eq_true',
      List.isEmpty_eq_false_iff, ne_eq, Tree.declaredBy_eq_nil_iff, not_or, not_not]
    exact ⟨fun ⟨⟨reaches, found⟩, named, isType⟩ => ⟨reaches, found, named, isType⟩,
      fun own => ⟨⟨own.reaches, own.found⟩, own.named, own.isType⟩⟩
  refine ⟨_, ⟨lists, ?_⟩, fun others ⟨others_list, _⟩ => others_list.unique grown.wellFormed lists⟩
  rw [Tree.declared, Node.holdsTypes_eq_isScope]
  exact (flatMap_filter_isEmpty _ entries).symm

end

end Decl

namespace Registry

variable {trees : List Tree} {name : String} {entry : Entry}

theorem mem_declarationsOf_iff {declared : List (String × Entry)} :
    entry ∈ declarationsOf declared name ↔ (name, entry) ∈ declared := by
  simp [declarationsOf]

/-- What is taken in about a name comes from the types that the headers declare. -/
theorem mem_declarationsOf_trees_iff (grown : ∀ tree ∈ trees, tree.Grown) :
    entry ∈ declarationsOf (trees.flatMap Tree.declared) name ↔
      ∃ tree ∈ trees, ∃ id node, tree.DeclaresType id node ∧
        (name, entry) ∈ tree.declaredBy id node := by
  rw [mem_declarationsOf_iff, List.mem_flatMap]
  refine exists_congr fun tree => and_congr_right fun listed => ?_
  obtain ⟨types, ⟨lists, declared_eq⟩, -⟩ := (grown tree listed).existsUnique_listsTypes
  rw [declared_eq, List.mem_flatMap]
  constructor
  · rintro ⟨⟨id, node⟩, typed, declared⟩
    exact ⟨id, node, (lists.mem_iff id node).mp typed, declared⟩
  · rintro ⟨id, node, declares, declared⟩
    exact ⟨(id, node), (lists.mem_iff id node).mpr declares, declared⟩

end Registry
end HeaderBinding
