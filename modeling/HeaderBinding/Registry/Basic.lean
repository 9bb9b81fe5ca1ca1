import HeaderBinding.NameMap
import HeaderBinding.Registry.Entry

/-!
# The type registry

Every name of a type that the headers mention, with what is known about it.
-/

namespace HeaderBinding

/-- The known names of types. -/
structure Registry where
  entries : NameMap Registry.Entry

namespace Registry

/-- A registry without names. -/
def empty : Registry :=
  ⟨∅⟩

instance : Inhabited Registry :=
  ⟨empty⟩

/-- What is known about a name. -/
def find? (registry : Registry) (name : String) : Option Entry :=
  registry.entries[name]?

/-- The name is known. -/
def contains (registry : Registry) (name : String) : Bool :=
  (registry.find? name).isSome

/-- Number of known names. -/
def size (registry : Registry) : Nat :=
  registry.entries.size

/-- The known names in order, with what is known about them. -/
def toList (registry : Registry) : List (String × Entry) :=
  registry.entries.toList

/-- The name stands for a record whose body was seen. -/
def isCompleteRecord (registry : Registry) (name : String) : Bool :=
  (registry.find? name).any Entry.isCompleteRecord

/-- The spelling that a name is another name for. -/
def target? (registry : Registry) (name : String) : Option String :=
  (registry.find? name).bind Entry.target?

/-- Take a declaration of a name in. -/
def add (registry : Registry) (name : String) (entry : Entry) : Registry :=
  ⟨registry.entries.alter name fun
    | some known => some (known.join entry)
    | none => some entry⟩

/-- Take declarations in, one after the other. -/
def addAll (registry : Registry) (declared : List (String × Entry)) : Registry :=
  declared.foldl (fun registry item => registry.add item.1 item.2) registry

/-- Enter a name that is not known yet. -/
def addMissing (registry : Registry) (name : String) (entry : Entry) : Registry :=
  if registry.contains name then registry else ⟨registry.entries.insert name entry⟩

/-- Enter those names that are not known yet, one after the other. -/
def addAllMissing (registry : Registry) (items : List (String × Entry)) : Registry :=
  items.foldl (fun registry item => registry.addMissing item.1 item.2) registry

/-- Take in what another registry knows, as if its names were declared in their order. -/
def merge (registry other : Registry) : Registry :=
  registry.addAll other.toList

theorem find?_empty (name : String) : empty.find? name = none := by
  simp [empty, find?]

theorem find?_add (registry : Registry) (name other : String) (entry : Entry) :
    (registry.add name entry).find? other =
      if name = other then
        some (((registry.find? name).map (·.join entry)).getD entry)
      else registry.find? other := by
  simp only [add, find?, Std.ExtTreeMap.getElem?_alter, Std.LawfulEqCmp.compare_eq_iff_eq]
  split
  · cases registry.entries[name]? <;> rfl
  · rfl

theorem find?_addMissing (registry : Registry) (name other : String) (entry : Entry) :
    (registry.addMissing name entry).find? other =
      if name = other then some ((registry.find? name).getD entry) else registry.find? other := by
  by_cases known : registry.contains name
  · obtain ⟨found, found_eq⟩ := Option.isSome_iff_exists.mp known
    by_cases same : name = other
    · subst same
      simp [addMissing, known, found_eq]
    · simp [addMissing, known, same]
  · have absent : registry.find? name = none := by
      simpa [contains] using known
    by_cases same : name = other
    · subst same
      simp only [addMissing, known, absent]
      simp [find?]
    · simp only [addMissing, known]
      simp [find?, Std.ExtTreeMap.getElem?_insert, same]

/-- Registries that know the same about every name are equal. -/
theorem ext_find? {left right : Registry}
    (same : ∀ name, left.find? name = right.find? name) : left = right := by
  cases left
  cases right
  congr 1
  exact Std.ExtTreeMap.ext_getElem? same

end Registry
end HeaderBinding
