import HeaderBinding.Proofs.Wrapper.Body
import HeaderBinding.Proofs.Wrapper.Layout

/-!
# Names of members

The members of a wrapper class have different names: the wrapper functions among themselves, and
from the members that every wrapper has. Of the names that are kept free only that of constructors
is used, for the constructor without parameters.
-/

namespace HeaderBinding
namespace Wrapper

open Layout (indentation linesOf linesOf_append)
open Writer (writtenLines)

/-! ## Names that are kept free -/

/-- Only the constructor without parameters has a name that is kept free. -/
theorem Signature.ident_mem_reservedNames_iff {signature : Signature} :
    signature.ident ∈ reservedNames ↔ signature = ⟨none, []⟩ := by
  constructor
  · intro taken
    have bare : signature.spellings = [] := by
      by_contra filled
      have digest : EndsInDigest signature.ident := endsInDigest_suffixed _ filled
      exact (not_endsInDigest_of_mem_reservedNames _ taken).1 digest
    rw [ident, bare, suffixed_nil, baseName] at taken
    obtain ⟨name?, spellings⟩ := signature
    cases name? with
    | none => exact congrArg (Signature.mk none) bare
    | some name => exact absurd taken (memberName_not_mem_reservedNames name)
  · rintro rfl
    decide

section

variable (scope : TypeScope) (family base : String) (model : Api.Class)

theorem map_ident_methods :
    (ofClass scope family base model).methods.map Method.ident =
      (keptMembers model).map fun member => member.signature.ident := by
  rw [methods_ofClass, List.map_map, keptMembers]
  exact List.map_congr_left fun member _ => member.ident_wrapped scope model

theorem nodup_map_ident_methods :
    ((ofClass scope family base model).methods.map Method.ident).Nodup := by
  rw [map_ident_methods]
  exact nodup_map_firstBy [] (members model)

theorem of_ident_mem_reservedNames :
    ∀ method ∈ (ofClass scope family base model).methods, method.ident ∈ reservedNames →
      method.ident = constructName ∧ method.kind = .construct ∧ method.params = [] := by
  rw [forall_mem_methods_ofClass]
  intro member _ taken
  rw [Member.ident_wrapped, Signature.ident_mem_reservedNames_iff] at taken
  cases member with
  | creator function =>
      have bare : function.params = [] :=
        List.map_eq_nil_iff.mp (congrArg Signature.spellings taken)
      refine ⟨?_, rfl, ?_⟩
      · rw [Member.ident_wrapped, taken]
        rfl
      · simp [Member.wrapped, ofCreator, bare]
  | method function => simp [Member.signature] at taken

end

/-! ## Members of every wrapper -/

/-- The members that every wrapper has, with the lines that declare them. -/
def ownMembers : List (String × String) :=
  [("native", "void *native = nullptr;"), ("owned", "bool owned = false;"),
    ("destroy", "void destroy();"), ("_bind_methods", "static void _bind_methods();")]

theorem mem_writtenLines_headerCalls (wrapper : Class) (utilsName : String) :
    ∀ member ∈ ownMembers,
      indentation 1 ++ member.2 ∈ writtenLines 0 (wrapper.headerCalls utilsName) := by
  rw [wrapper.headerCalls_eq, Layout.writtenLines_callsOf]
  simp [ownMembers, Class.headerLayout, linesOf, Layout.lines, linesOf_append]

/-- Where functions have different names, each name leads to its own function. -/
theorem Class.method?_eq_some_iff {wrapper : Class}
    (distinct : (wrapper.methods.map Method.ident).Nodup) {name : String} {method : Method} :
    wrapper.method? name = some method ↔ method ∈ wrapper.methods ∧ method.ident = name := by
  constructor
  · intro found
    exact ⟨List.mem_of_find?_eq_some found, by simpa using List.find?_some found⟩
  · rintro ⟨listed, rfl⟩
    cases found : wrapper.method? method.ident with
    | none => simpa using List.find?_eq_none.mp found method listed
    | some other =>
        have same : other.ident = method.ident := by simpa using List.find?_some found
        rw [List.inj_on_of_nodup_map distinct (List.mem_of_find?_eq_some found) listed same]

/-- The members of a wrapper class have different names, those that every wrapper has included. A
name that is kept free is only used for a constructor, and each name leads to its own function. -/
theorem members_named_apart (scope : TypeScope) (family base : String) (model : Api.Class) :
    let wrapper := ofClass scope family base model
    (ownMembers.map Prod.fst ++ wrapper.methods.map Method.ident).Nodup ∧
      (∀ utilsName, ∀ member ∈ ownMembers,
        indentation 1 ++ member.2 ∈ writtenLines 0 (wrapper.headerCalls utilsName)) ∧
      (∀ method ∈ wrapper.methods, method.ident ∈ reservedNames →
        method.ident = constructName ∧ method.kind = .construct ∧ method.params = []) ∧
      ∀ name method,
        wrapper.method? name = some method ↔ method ∈ wrapper.methods ∧ method.ident = name := by
  intro wrapper
  have distinct := nodup_map_ident_methods scope family base model
  have reserved := of_ident_mem_reservedNames scope family base model
  refine ⟨?_, mem_writtenLines_headerCalls wrapper, reserved, fun _ _ =>
    Class.method?_eq_some_iff distinct⟩
  have own_reserved : ∀ name ∈ ownMembers.map Prod.fst,
      name ∈ reservedNames ∧ name ≠ constructName := by decide
  refine List.nodup_append.mpr ⟨by decide, distinct, ?_⟩
  rintro name own _ wrapped rfl
  obtain ⟨method, listed, rfl⟩ := List.mem_map.mp wrapped
  obtain ⟨taken, other⟩ := own_reserved _ own
  exact other (reserved method listed taken).1

/-- A class with methods that are called like members of every wrapper, and one that is called as
another is once its name is kept free. -/
def vaultClass : Api.Class where
  qualifiedName := "Vault"
  creators := [⟨[], .plain "Vault"⟩]
  methods := ["open", "destroy", "owned", "native_destroy", "construct"].map (procedure · [])
  isDefinition := true
  isComplete := true

/-- Only the constructor has a name that is kept free, and each name stands once. -/
example : (ofClass emptyScope "Godot" "RefCounted" vaultClass).methods.map Method.ident =
    ["construct", "open", "native_destroy", "native_owned", "native_construct"] := by
  decide +kernel

end Wrapper
end HeaderBinding
