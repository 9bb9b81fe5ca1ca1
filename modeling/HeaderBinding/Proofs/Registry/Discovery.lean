import HeaderBinding.Proofs.Registry.History

/-!
# What discovery finds out about a name

The entry of a name after discovery follows from the declarations of that name alone, in the order
of the headers and, within a header, of the source. A name that no header declares is filled in from
the built-in primitive types, and failing these from the mappings of the user.
-/

namespace HeaderBinding

open Decl

namespace Builtin

/-- A table of other names has an entry for each spelling that stands for another one. -/
private theorem head?_declarationsOf_renamed {table : List (String × String)}
    (distinct : table.Pairwise fun first second => first.1 ≠ second.1) (name : String) :
    (Registry.declarationsOf ((table.filter fun item => item.1 ≠ item.2).map fun item =>
        (item.1, Registry.Entry.synonym (some item.2))) name).head? =
      ((table.lookup name).filter (· ≠ name)).map fun target => .synonym (some target) := by
  induction distinct with
  | nil => rfl
  | @cons item table apart _ induction =>
      obtain ⟨spelling, target⟩ := item
      by_cases same : spelling = name
      · subst same
        have absent : table.lookup spelling = none := by
          rw [List.lookup_eq_none_iff]
          intro other member
          simpa using apart other member
        rw [absent] at induction
        by_cases identity : spelling = target
        · simpa [List.lookup_cons, ← identity, Option.filter_some] using induction
        · simp [identity, Ne.symm identity, Registry.declarationsOf,
            Option.filter_some]
      · have differs : (name == spelling) = false := by simpa using Ne.symm same
        simp only [List.lookup_cons, differs]
        rw [← induction]
        by_cases identity : spelling = target <;> simp [identity, same, Registry.declarationsOf]

/-- The entry of a built-in name that stands for another spelling. -/
def synonym? (name : String) : Option Registry.Entry :=
  ((primitive? name).filter (· ≠ name)).map fun target => .synonym (some target)

theorem head?_declarationsOf_entries (name : String) :
    (Registry.declarationsOf entries name).head? = synonym? name := by
  have distinct : primitives.Pairwise fun first second => first.1 ≠ second.1 := by decide
  exact head?_declarationsOf_renamed distinct name

end Builtin

namespace Registry

/-- The entry of a name that the user has mapped. -/
def mapped? (overrides : OverrideTable) (name : String) : Option Entry :=
  overrides[name]?.map fun mapping => .mapped mapping.target?

theorem head?_declarationsOf_overrides (overrides : OverrideTable) (name : String) :
    (declarationsOf (overrides.toList.map fun item =>
      (item.1, Entry.mapped item.2.target?)) name).head? = mapped? overrides name := by
  have values : declarationsOf (overrides.toList.map fun item =>
      (item.1, Entry.mapped item.2.target?)) name =
        (overrides.toList.filter fun item => item.1 = name).map fun item =>
          .mapped item.2.target? := by
    simp [declarationsOf, List.filter_map, Function.comp_def]
  rw [values, NameMap.filter_toList, mapped?]
  cases overrides[name]? <;> rfl

/-- Entering names that are not known yet changes nothing about the known ones. -/
theorem find?_addAllMissing (registry : Registry) (items : List (String × Entry)) (name : String) :
    (registry.addAllMissing items).find? name =
      (registry.find? name).or (declarationsOf items name).head? := by
  induction items generalizing registry with
  | nil => simp [addAllMissing, declarationsOf]
  | cons item items induction =>
      rw [show registry.addAllMissing (item :: items) =
        (registry.addMissing item.1 item.2).addAllMissing items from rfl, induction,
        find?_addMissing]
      by_cases same : item.1 = name
      · subst same
        cases registry.find? item.1 <;> simp [declarationsOf]
      · simp [same, declarationsOf]

theorem find?_finish (registry : Registry) (overrides : OverrideTable) (name : String) :
    (registry.finish overrides).find? name =
      ((registry.find? name).or (Builtin.synonym? name)).or (mapped? overrides name) := by
  rw [finish, addOverrides, find?_addAllMissing, addBuiltins, find?_addAllMissing,
    Builtin.head?_declarationsOf_entries, head?_declarationsOf_overrides]

/-! ## Declarations of headers -/

theorem isDeclared_of_mem_declaredBy {tree : Tree} {id : NodeId} {node : Node}
    {item : String × Entry} (member : item ∈ tree.declaredBy id node) : item.2.isDeclared := by
  have own : ∀ entry, tree.entryOf? id node = some entry → entry.isDeclared := by
    intro entry found
    simp only [Tree.entryOf?] at found
    split at found
    · simp at found
    · split at found <;> cases found <;> rfl
  simp only [Tree.declaredBy] at member
  split at member
  · simp at member
  · rename_i entry found
    rcases List.mem_cons.mp member with rfl | bare
    · exact own entry found
    · split at bare
      · simp at bare
      · obtain rfl := List.mem_singleton.mp bare
        rfl

theorem isDeclared_of_mem_declarationsOf {trees : List Tree} {name : String} {entry : Entry}
    (member : entry ∈ declarationsOf (trees.flatMap Tree.declared) name) : entry.isDeclared := by
  obtain ⟨item, item_mem, rfl⟩ := List.mem_map.mp member
  obtain ⟨tree, -, in_tree⟩ := List.mem_flatMap.mp (List.mem_filter.mp item_mem).1
  obtain ⟨⟨id, node⟩, -, by_node⟩ := List.mem_flatMap.mp in_tree
  exact isDeclared_of_mem_declaredBy by_node

theorem foldl_addTree (registry : Registry) (trees : List Tree) :
    trees.foldl addTree registry = registry.addAll (trees.flatMap Tree.declared) := by
  induction trees generalizing registry with
  | nil => rfl
  | cons tree trees induction =>
      rw [List.foldl_cons, induction, List.flatMap_cons, addAll_append, addTree]

/-- The headers by themselves settle a name by its declarations in their order. -/
theorem find?_foldl_addTree (trees : List Tree) (name : String) :
    (trees.foldl addTree empty).find? name =
      Entry.settled (declarationsOf (trees.flatMap Tree.declared) name) := by
  rw [foldl_addTree, find?_addAll, find?_empty]
  exact Entry.foldl_absorb _ fun entry member => isDeclared_of_mem_declarationsOf member

/-- What is known about a name after discovery: what its declarations settle, else the built-in
primitive type, else the mapping of the user, else nothing. -/
theorem find?_discover (trees : List Tree) (overrides : OverrideTable) (name : String) :
    (discover trees overrides).find? name =
      ((Entry.settled (declarationsOf (trees.flatMap Tree.declared) name)).or
        (Builtin.synonym? name)).or (mapped? overrides name) := by
  rw [discover, find?_finish, find?_foldl_addTree]

end Registry
end HeaderBinding
