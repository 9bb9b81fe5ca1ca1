import HeaderBinding.Proofs.Wrapper.Registration
import HeaderBinding.Proofs.Wrapper.Reserved

/-!
# Names for scripts

Scripts know a function by its plain name unless the name is overloaded. A name that is kept free is
given its prefix there too, and then nothing tells it apart from a name that has the prefix already:
`nodup_boundNames_iff` says when the names that are bound for scripts are different.
-/

namespace HeaderBinding

theorem Identifier.isWordChar_of_mem_safe {name : String} {c : Char}
    (member : c ∈ (safe name).toList) : isWordChar c := by
  rw [safe, String.toList_ofList, safeChars] at member
  obtain ⟨original, -, rfl⟩ := List.mem_map.mp member
  split
  · assumption
  · decide

theorem Api.Class.eq_of_not_isOverloaded {model : Api.Class} {first second : Api.Method}
    (single : model.isOverloaded first.name = false) (first_mem : first ∈ model.methods)
    (second_mem : second ∈ model.methods) (same : first.name = second.name) : first = second := by
  let named := model.methods.filter fun method => method.name = first.name
  have listed (method : Api.Method) (member : method ∈ model.methods)
      (name : method.name = first.name) : method ∈ named :=
    List.mem_filter.mpr ⟨member, decide_eq_true name⟩
  have short : named.length ≤ 1 := by
    simpa [isOverloaded, Nat.lt_succ_iff] using single
  obtain ⟨only, named_eq⟩ : ∃ only, named = [only] :=
    List.length_eq_one_iff.mp
      (Nat.le_antisymm short (List.length_pos_of_mem (listed first first_mem rfl)))
  rw [named_eq] at listed
  rw [List.mem_singleton.mp (listed first first_mem rfl),
    List.mem_singleton.mp (listed second second_mem same.symm)]

namespace Wrapper

open Text
open Layout (indentation linesOf linesOf_append linesOf_flatMap linesOf_map_line)
open Writer (writtenLines)

/-! ## Characters of names -/

theorem isWordChar_of_mem_memberName {name : String} {c : Char}
    (member : c ∈ (memberName name).toList) : Identifier.isWordChar c := by
  by_cases taken : Identifier.safe name ∈ reservedNames
  · have front : ∀ c ∈ "native_".toList, Identifier.isWordChar c :=
      List.all_eq_true.mp (by decide)
    rw [memberName_of_mem taken, prefixed, String.toList_append, List.mem_append] at member
    exact member.elim (front c) Identifier.isWordChar_of_mem_safe
  · rw [memberName_of_not_mem taken] at member
    exact Identifier.isWordChar_of_mem_safe member

theorem isWordChar_of_mem_suffixed {name : String} {spellings : List String} {c : Char}
    (base : ∀ c ∈ name.toList, Identifier.isWordChar c)
    (member : c ∈ (suffixed name spellings).toList) : Identifier.isWordChar c := by
  by_cases bare : spellings = []
  · rw [bare, suffixed_nil] at member
    exact base c member
  · have digits : ∀ c ∈ "0123456789abcdef".toList, Identifier.isWordChar c :=
      List.all_eq_true.mp (by decide)
    rw [suffixed_of_ne_nil name bare, String.toList_append, String.toList_append, List.mem_append,
      List.mem_append] at member
    rcases member with (own | line) | digest
    · exact base c own
    · obtain rfl := List.mem_singleton.mp line
      decide
    · exact digits c (List.contains_iff_mem.mp (isHexDigit_of_mem_signatureDigest digest))

/-- A name of a wrapper function is an identifier, apart from a digit that may come first. -/
theorem Signature.isWordChar_of_mem_ident {signature : Signature} {c : Char}
    (member : c ∈ signature.ident.toList) : Identifier.isWordChar c := by
  refine isWordChar_of_mem_suffixed (fun c base => ?_) member
  rw [baseName] at base
  split at base
  · have construct : ∀ c ∈ constructName.toList, Identifier.isWordChar c :=
      List.all_eq_true.mp (by decide)
    exact construct c base
  · exact isWordChar_of_mem_memberName base

/-! ## Names of members for scripts -/

namespace Member

/-- Scripts know the member by the name with the digest. -/
def isSuffixed (model : Api.Class) : Member → Bool
  | creator _ => model.creators.length ≠ 1
  | method function => model.isOverloaded function.name

/-- What scripts tell the member apart by. -/
def scriptSignature (model : Api.Class) (member : Member) : Signature where
  name? := member.signature.name?
  spellings := if member.isSuffixed model then member.signature.spellings else []

variable {model : Api.Class} {first second : Member}

theorem scriptName_wrapped (scope : TypeScope) (model : Api.Class) (member : Member) :
    (member.wrapped scope model).scriptName = (member.scriptSignature model).ident := by
  cases member with
  | creator function =>
      by_cases lone : model.creators.length = 1 <;>
        simp [wrapped, ofCreator, scriptSignature, isSuffixed, signature, Signature.ident,
          Signature.baseName, suffixed_nil, lone]
  | method function =>
      by_cases overloaded : model.isOverloaded function.name = true <;>
        simp [wrapped, ofMethod, scriptSignature, isSuffixed, signature, Signature.ident,
          Signature.baseName, suffixed_nil, overloaded]

@[simp]
theorem name?_scriptSignature : (first.scriptSignature model).name? = first.signature.name? :=
  rfl

theorem scriptSignature_of_isSuffixed (suffixed : first.isSuffixed model) :
    first.scriptSignature model = first.signature := by
  simp [scriptSignature, suffixed]

theorem isSuffixed_of_spellings_ne (filled : (first.scriptSignature model).spellings ≠ []) :
    first.isSuffixed model := by
  by_contra plain
  simp [scriptSignature, plain] at filled

/-- Whether a digest is appended depends on the name alone. -/
theorem isSuffixed_eq (same : first.signature.name? = second.signature.name?) :
    first.isSuffixed model = second.isSuffixed model := by
  cases first <;> cases second <;> simp_all [signature, isSuffixed]

/-- Without a digest there is only one member with a name. -/
theorem eq_of_not_isSuffixed (plain : first.isSuffixed model = false)
    (first_mem : first ∈ members model) (second_mem : second ∈ members model)
    (same : first.signature.name? = second.signature.name?) : first = second := by
  cases first with
  | creator function =>
      cases second with
      | creator other =>
          obtain ⟨only, lone⟩ : ∃ only, model.creators = [only] := by
            simpa [isSuffixed, List.length_eq_one_iff] using plain
          simp_all [members]
      | method other => cases same
  | method function =>
      cases second with
      | creator other => cases same
      | method other =>
          have names : function.name = other.name := Option.some.inj same
          simp only [members, List.mem_append, List.mem_map, reduceCtorEq, and_false, exists_false,
            method.injEq, exists_eq_right, false_or] at first_mem second_mem
          rw [Api.Class.eq_of_not_isOverloaded plain first_mem second_mem names]

end Member

section

variable {model : Api.Class}

theorem nodup_map_ident_keptMembers (model : Api.Class) :
    ((keptMembers model).map fun member => member.signature.ident).Nodup :=
  nodup_map_firstBy [] (members model)

/-- Wrapped members are told apart for scripts by their signatures there. -/
theorem eq_of_scriptSignature_eq {first second : Member} (first_kept : first ∈ keptMembers model)
    (second_kept : second ∈ keptMembers model)
    (same : first.scriptSignature model = second.scriptSignature model) : first = second := by
  have names : first.signature.name? = second.signature.name? := by
    simpa using congrArg Signature.name? same
  by_cases suffixed : first.isSuffixed model = true
  · rw [Member.scriptSignature_of_isSuffixed suffixed, Member.scriptSignature_of_isSuffixed
      (Member.isSuffixed_eq names ▸ suffixed)] at same
    exact List.inj_on_of_nodup_map (nodup_map_ident_keptMembers model) first_kept second_kept
      (congrArg Signature.ident same)
  · exact Member.eq_of_not_isSuffixed (Bool.eq_false_iff.mpr suffixed)
      (mem_members_of_mem_keptMembers first_kept) (mem_members_of_mem_keptMembers second_kept) names

/-- Names for scripts that both have a digest are names of wrapper functions, which differ. -/
theorem scriptSignature_ident_eq_iff {first second : Member}
    (first_kept : first ∈ keptMembers model) (second_kept : second ∈ keptMembers model) :
    let left := first.scriptSignature model
    let right := second.scriptSignature model
    left.ident = right.ident ↔
      first = second ∨ left.Twins right ∨ left.Impersonates right ∨ right.Impersonates left := by
  intro left right
  have equal : left = right ↔ first = second := by
    refine ⟨eq_of_scriptSignature_eq first_kept second_kept, ?_⟩
    rintro rfl
    rfl
  rw [Signature.ident_eq_iff_of_apart, equal, or_assoc]
  intro left_ne right_ne same
  have left_eq := Member.scriptSignature_of_isSuffixed (Member.isSuffixed_of_spellings_ne left_ne)
  have right_eq := Member.scriptSignature_of_isSuffixed (Member.isSuffixed_of_spellings_ne right_ne)
  simp only [left, right, left_eq, right_eq] at same ⊢
  rw [List.inj_on_of_nodup_map (nodup_map_ident_keptMembers model) first_kept second_kept same]

/-- Two wrapped members have the same name for scripts: their names become the same and neither has
a digest there, or one has no digest and is called as the other one is with its digest. -/
def HasScriptLookalikes (model : Api.Class) : Prop :=
  ∃ first ∈ keptMembers model, ∃ second ∈ keptMembers model,
    (first.scriptSignature model).Twins (second.scriptSignature model) ∨
      (first.scriptSignature model).Impersonates (second.scriptSignature model)

theorem nodup_scriptNames_iff (scope : TypeScope) (family base : String) (model : Api.Class) :
    ((ofClass scope family base model).methods.map Method.scriptName).Nodup ↔
      ¬HasScriptLookalikes model := by
  have names : (ofClass scope family base model).methods.map Method.scriptName =
      (keptMembers model).map fun member => (member.scriptSignature model).ident := by
    rw [methods_ofClass, List.map_map, keptMembers]
    exact List.map_congr_left fun member _ => member.scriptName_wrapped scope model
  have distinct : (keptMembers model).Nodup := .of_map _ (nodup_map_ident_keptMembers model)
  rw [names]
  constructor
  · rintro apart ⟨first, first_kept, second, second_kept, alike⟩
    have same := (scriptSignature_ident_eq_iff first_kept second_kept).mpr
      (.inr (alike.imp_right .inl))
    obtain rfl := List.inj_on_of_nodup_map apart first_kept second_kept same
    rcases alike with twins | impostor
    · exact twins.ne rfl
    · exact impostor.ne rfl
  · intro none_alike
    refine distinct.map_on fun first first_kept second second_kept same => ?_
    rcases (scriptSignature_ident_eq_iff first_kept second_kept).mp same with
      equal | twins | impostor | impostor
    · exact equal
    · exact absurd ⟨first, first_kept, second, second_kept, .inl twins⟩ none_alike
    · exact absurd ⟨first, first_kept, second, second_kept, .inr impostor⟩ none_alike
    · exact absurd ⟨second, second_kept, first, first_kept, .inr impostor⟩ none_alike

end

/-! ## Names that are bound -/

/-- What lines begin with that bind a function, up to its name for scripts and apart from blanks. -/
def bindingMarks : List String :=
  ["ClassDB::bind_method(D_METHOD(\"",
    "ClassDB::bind_static_method(get_class_static(), D_METHOD(\""]

/-- The name for scripts that a line binds a function to. -/
def boundName? (line : String) : Option String :=
  (bindingMarks.findSome? fun mark => dropFront? mark.toList (trimStart line.toList)).map
    fun rest => String.ofList (rest.takeWhile (· ≠ '"'))

/-- The names for scripts that a class binds its functions to, in the order of the lines. -/
def Class.boundNames (wrapper : Class) : List String :=
  (writtenLines 0 wrapper.bindingCalls).filterMap boundName?

theorem Class.boundNames_eq_filterMap (wrapper : Class) :
    wrapper.boundNames = (wrapper.bindings.lines 0).filterMap boundName? := by
  rw [boundNames, bindingCalls_eq, Layout.writtenLines_calls]

theorem boundName?_of_mark (depth : Nat) {mark name : String} (listed : mark ∈ bindingMarks)
    (unquoted : '"' ∉ name.toList) (rest : String) :
    boundName? (indentation depth ++ (mark ++ (name ++ ("\"" ++ rest)))) = some name := by
  let later := name.toList ++ '"' :: rest.toList
  have marked : trimStart (indentation depth ++ (mark ++ (name ++ ("\"" ++ rest)))).toList =
      mark.toList ++ later := by
    have starts : ∀ other ∈ bindingMarks, other.toList ≠ [] ∧ startsBlank other.toList = false := by
      decide
    rw [String.toList_append, trimStart_indentation, String.toList_append,
      trimStart_append (starts mark listed).1 (starts mark listed).2]
    simp [later]
  have found : bindingMarks.findSome? (fun other =>
      dropFront? other.toList (mark.toList ++ later)) = some later := by
    have taken := dropFront?_eq_some.mpr (rfl : mark.toList ++ later = mark.toList ++ later)
    rcases List.mem_pair.mp listed with rfl | rfl
    · rw [bindingMarks, List.findSome?_cons, taken]
    · have apart : AreApart bindingMarks[0].toList bindingMarks[1].toList := by decide
      rw [bindingMarks, List.findSome?_cons, List.findSome?_cons, taken]
      have other := dropFront?_eq_none_of_areApart (apart.append later)
      simp only [bindingMarks, List.getElem_cons_zero, List.getElem_cons_succ] at other
      rw [other]
  have read : later.takeWhile (· ≠ '"') = name.toList := by
    rw [List.takeWhile_append_of_pos, List.takeWhile_cons_of_neg (by simp), List.append_nil]
    intro c member
    exact decide_eq_true fun quote => unquoted (quote ▸ member)
  rw [boundName?, marked, found, Option.map_some, read, String.ofList_toList]

theorem boundName?_eq_none (depth : Nat) (front : String)
    (apart : ∀ mark ∈ bindingMarks, AreApart mark.toList front.toList)
    (starts : startsBlank front.toList = false) (rest : String) :
    boundName? (indentation depth ++ (front ++ rest)) = none := by
  have filled := (apart _ List.mem_cons_self).ne_nil
  have silent : bindingMarks.findSome? (fun mark =>
      dropFront? mark.toList (front.toList ++ rest.toList)) = none :=
    List.findSome?_eq_none_iff.mpr fun mark listed =>
      dropFront?_eq_none_of_areApart ((apart mark listed).append _)
  rw [boundName?, String.toList_append, trimStart_indentation, String.toList_append,
    trimStart_append filled starts, silent, Option.map_none]

/-- A binding begins with a mark and the name for scripts. -/
theorem exists_binding_eq (className : String) (method : Method) :
    ∃ mark ∈ bindingMarks, ∃ rest,
      method.binding className = mark ++ (method.scriptName ++ ("\"" ++ rest)) := by
  let params := String.join (method.params.map fun param => ", \"" ++ param.name ++ "\"")
  let rest := params ++ s!"), &{className}::{method.ident});"
  unfold Method.binding bindingSignature
  split
  · refine ⟨_, List.mem_cons_of_mem _ List.mem_cons_self, rest, ?_⟩
    simp [rest, params, toString, ← String.toList_inj]
  · refine ⟨_, List.mem_cons_self, rest, ?_⟩
    simp [rest, params, toString, ← String.toList_inj]

theorem boundName?_binding (depth : Nat) (className : String) {method : Method}
    (unquoted : '"' ∉ method.scriptName.toList) :
    boundName? (indentation depth ++ method.binding className) = some method.scriptName := by
  obtain ⟨mark, listed, rest, written⟩ := exists_binding_eq className method
  rw [written, boundName?_of_mark depth listed unquoted]

theorem boundName?_constantBinding (depth : Nat) (enumName : String) (enumerator : Enumerator) :
    boundName? (indentation depth ++ constantBinding enumName enumerator) = none := by
  obtain ⟨values, written⟩ : ∃ values : String, constantBinding enumName enumerator =
      "ClassDB::bind_integer_constant(" ++ values := by
    unfold constantBinding
    generalize toString enumerator.value = value
    refine ⟨s!"get_class_static(), \"{enumName}\", \"{enumerator.name}\", {value});", ?_⟩
    simp [toString, ← String.toList_inj]
  rw [written]
  exact boundName?_eq_none depth _ (by decide) (by decide) values

theorem forall_constants_boundName? (depth : Nat) (wrapper : Class) :
    ∀ line ∈ linesOf depth wrapper.constantLayout, boundName? line = none := by
  simp only [Class.constantLayout, linesOf_flatMap, linesOf_map_line, List.forall_mem_flatMap,
    List.forall_mem_map]
  exact fun nested _ enumerator _ => boundName?_constantBinding depth nested.name enumerator

/-- A class binds its functions in their order, and the one that gives the object up after them. -/
theorem boundNames_eq {wrapper : Class}
    (unquoted : ∀ method ∈ wrapper.methods, '"' ∉ method.scriptName.toList) :
    wrapper.boundNames = wrapper.methods.map Method.scriptName ++ ["destroy"] := by
  have functions : (wrapper.methods.map fun method =>
      indentation 1 ++ method.binding wrapper.name).filterMap boundName? =
        wrapper.methods.map Method.scriptName := by
    rw [List.filterMap_map, ← List.filterMap_eq_map']
    exact List.filterMap_congr fun method listed => boundName?_binding 1 _ (unquoted method listed)
  have constants : (linesOf 1 wrapper.constantLayout).filterMap boundName? = [] :=
    List.filterMap_eq_nil_iff.mpr (forall_constants_boundName? 1 wrapper)
  have own : boundName? (indentation 1 ++
      s!"ClassDB::bind_method(D_METHOD(\"destroy\"), &{wrapper.name}::destroy);") =
        some "destroy" := by
    have written : s!"ClassDB::bind_method(D_METHOD(\"destroy\"), &{wrapper.name}::destroy);" =
        "ClassDB::bind_method(D_METHOD(\"" ++
          ("destroy" ++ ("\"" ++ s!"), &{wrapper.name}::destroy);")) := by
      simp [toString, ← String.toList_inj]
    rw [written]
    exact boundName?_of_mark 1 List.mem_cons_self (by decide) _
  have head : boundName? (indentation 0 ++
      (s!"void {wrapper.name}::_bind_methods()" ++ " \x7b")) = none := by
    have written : s!"void {wrapper.name}::_bind_methods()" ++ " \x7b" =
        "void " ++ (wrapper.name ++ "::_bind_methods() \x7b") := by
      simp [toString, ← String.toList_inj]
    rw [written]
    exact boundName?_eq_none 0 _ (by decide) (by decide) _
  have tail : boundName? (indentation 0 ++ "\x7d") = none := by
    have silent := boundName?_eq_none 0 "\x7d" (by decide) (by decide) ""
    rwa [String.append_empty] at silent
  rw [Class.boundNames_eq_filterMap, Class.bindings, Layout.lines, linesOf_append,
    linesOf_map_line, linesOf, Layout.lines, List.filterMap_append, List.filterMap_cons_none head,
    List.filterMap_append, functions, List.filterMap_append, List.filterMap_cons_some own,
    constants, List.filterMap_cons_none tail]
  simp

theorem boundNames_ofClass (scope : TypeScope) (family base : String) (model : Api.Class) :
    (ofClass scope family base model).boundNames =
      (ofClass scope family base model).methods.map Method.scriptName ++ ["destroy"] := by
  apply boundNames_eq
  rw [forall_mem_methods_ofClass]
  intro member _ quoted
  rw [Member.scriptName_wrapped] at quoted
  have isWord := Signature.isWordChar_of_mem_ident quoted
  revert isWord
  decide

/-- The names that a wrapper class binds functions to are different if and only if no two wrapped
members look alike for scripts. The function that gives the object up never shares its name. -/
theorem nodup_boundNames_iff (scope : TypeScope) (family base : String) (model : Api.Class) :
    (ofClass scope family base model).boundNames.Nodup ↔ ¬HasScriptLookalikes model := by
  have destroy_reserved : "destroy" ∈ reservedNames ∧ "destroy" ≠ constructName := by decide
  have apart : ∀ method ∈ (ofClass scope family base model).methods,
      method.scriptName ≠ "destroy" := by
    rw [forall_mem_methods_ofClass]
    intro member _ same
    rw [Member.scriptName_wrapped] at same
    have construct := Signature.ident_mem_reservedNames_iff.mp (same ▸ destroy_reserved.1)
    rw [construct] at same
    exact destroy_reserved.2 same.symm
  rw [boundNames_ofClass, ← nodup_scriptNames_iff scope family base, List.nodup_append]
  simpa using fun _ => apart

/-! ## A class with two names for one -/

/-- A class with two methods that only their parameters tell apart, once a name is kept free. -/
def storeClass : Api.Class where
  qualifiedName := "Store"
  methods := [procedure "get" [], procedure "native_get" ["int"]]
  isDefinition := true
  isComplete := true

/-- Both methods are wrapped, and scripts know both by one name. -/
theorem not_nodup_boundNames_storeClass :
    (storeClass.methods.map fun method => (method.name, spellingsOf method.params)).Nodup ∧
      (∀ method ∈ storeClass.methods, method.name.toList.all Identifier.isWordChar) ∧
      (∀ first ∈ members storeClass, ∀ second ∈ members storeClass,
        overloadKey? first.signature.spellings = overloadKey? second.signature.spellings →
          first.signature.spellings = second.signature.spellings) ∧
      ¬(ofClass emptyScope "Godot" "RefCounted" storeClass).boundNames.Nodup := by
  refine ⟨by decide, by decide, by decide +kernel, ?_⟩
  rw [boundNames_ofClass]
  decide +kernel

end Wrapper
end HeaderBinding
