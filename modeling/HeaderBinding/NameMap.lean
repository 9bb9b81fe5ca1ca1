import Std.Data.ExtTreeMap

/-!
# Maps keyed by names

A `NameMap` is a finite map from strings. Its entries are listed in the order of the code points
of their keys, which is also the order of the keys' UTF-8 bytes, and two maps with the same
look-ups are equal.
-/

namespace HeaderBinding

/-- A finite map from names, listed in code point order. -/
abbrev NameMap (Value : Type) :=
  Std.ExtTreeMap String Value compare

namespace NameMap

theorem filter_eq_singleton {Value : Type} {items : List (String × Value)} {name : String}
    {value : Value} (distinct : items.Pairwise fun first second => first.1 ≠ second.1)
    (member : (name, value) ∈ items) :
    items.filter (fun item => item.1 = name) = [(name, value)] := by
  induction distinct with
  | nil => simp at member
  | @cons item items apart _ induction =>
      rcases List.mem_cons.mp member with rfl | later
      · have others : items.filter (fun item => item.1 = name) = [] := by
          rw [List.filter_eq_nil_iff]
          intro other other_mem
          simpa using Ne.symm (apart other other_mem)
        simp [others]
      · have differs : item.1 ≠ name := apart _ later
        simp [differs, induction later]

/-- A name has at most one item in the list of a map, namely its value. -/
theorem filter_toList {Value : Type} (map : NameMap Value) (name : String) :
    map.toList.filter (fun item => item.1 = name) = map[name]?.toList.map (name, ·) := by
  cases found : map[name]? with
  | none =>
      have absent : ∀ item ∈ map.toList, ¬item.1 = name := by
        rintro ⟨_, value⟩ member rfl
        simp [Std.ExtTreeMap.mem_toList_iff_getElem?_eq_some.mp member] at found
      simpa using absent
  | some value =>
      have distinct : map.toList.Pairwise fun first second => first.1 ≠ second.1 := by
        simpa using map.distinct_keys_toList
      have member : (name, value) ∈ map.toList :=
        Std.ExtTreeMap.mem_toList_iff_getElem?_eq_some.mpr found
      simpa using filter_eq_singleton distinct member

/-- The values of a map are listed by their names. -/
theorem values_eq_map_toList {Value : Type} (map : NameMap Value) :
    map.values = map.toList.map Prod.snd := by
  obtain ⟨inner⟩ := map
  refine inner.inductionOn fun tree => ?_
  change tree.inner.values = (Std.DTreeMap.Internal.Impl.Const.toList tree.inner).map Prod.snd
  rw [Std.DTreeMap.Internal.Impl.values_eq_map_snd,
    Std.DTreeMap.Internal.Impl.Const.toList_eq_toListModel_map]
  simp

theorem mem_values_iff {Value : Type} (map : NameMap Value) (value : Value) :
    value ∈ map.values ↔ ∃ name : String, map[name]? = some value := by
  rw [values_eq_map_toList]
  constructor
  · intro member
    obtain ⟨⟨name, _⟩, listed, rfl⟩ := List.mem_map.mp member
    exact ⟨name, Std.ExtTreeMap.mem_toList_iff_getElem?_eq_some.mp listed⟩
  · rintro ⟨name, found⟩
    have listed : (name, value) ∈ map.toList :=
      Std.ExtTreeMap.mem_toList_iff_getElem?_eq_some.mpr found
    exact List.mem_map.mpr ⟨(name, value), listed, rfl⟩

end NameMap

end HeaderBinding
