import HeaderBinding.Proofs.Classification.Alias
import HeaderBinding.Proofs.Spelling.Shape
import HeaderBinding.Wrapper.Conversion

/-!
# Values of types with another name

A type is classified by what its name stands for, but the marks of a pointer or a reference are read
off the name as it is written. A name hides the marks of its target, so a value of the named type
crosses the boundary as one of the target without its marks. It depends on the classification which
marks make a difference.
-/

namespace HeaderBinding
namespace Wrapper

open Text (trimmed)
open TypeScope (Chain maxDepth)

/-- Two parameters are passed on with the same type, the same statements and the same argument. -/
def PassedAlike (left right : PassedParam) : Prop :=
  left.param.type = right.param.type ∧ left.prelude = right.prelude ∧
    left.argument = right.argument

/-- Two results come back with the same type and the same statements. -/
def ReturnedAlike (left right : ResultPlan) : Prop :=
  left.type = right.type ∧ ∀ call, left.forward call = right.forward call

/-- The marks of a type make no difference for passing a parameter on: nothing is moved into an
rvalue reference, no local is needed for an enum to be written to, and no record is pointed to. -/
def PassesUnmarked (shape : Shape) : Classification → Prop
  | .primitive _ => shape.indirection ≠ .rvalueRef
  | .enumRef .. => isMutableRef shape = false
  | .recordRef .. => shape.indirection ≠ .pointer ∧ shape.indirection ≠ .rvalueRef
  | _ => True

/-- The type is not `void`. -/
def isVoid (shape : Shape) : Bool :=
  shape.base = "void" && shape.indirection = .none

/-- The marks of a type make no difference for handing a result back: it is not `void`, and no
record is pointed or referred to. -/
def ReturnsUnmarked (shape : Shape) : Classification → Prop
  | .recordRef .. =>
      isVoid shape = false ∧ shape.indirection ≠ .pointer ∧ shape.indirection ≠ .lvalueRef
  | _ => isVoid shape = false

/-- A name that another name for a type can have: there is nothing to peel off it, and it is no
keyword for the lack of a value. -/
structure IsAliasName (name : String) : Prop where
  ne_empty : name ≠ ""
  ne_void : name ≠ "void"
  isBare : Shape.IsBare name

/-! ## Parameters -/

theorem moved_of_ne {shape : Shape} (fixed : shape.indirection ≠ .rvalueRef) (code : String) :
    moved shape code = code := by
  simp [moved, fixed]

theorem moved_eq_self_iff (shape : Shape) (code : String) :
    moved shape code = code ↔ shape.indirection ≠ .rvalueRef := by
  constructor
  · intro same rvalue
    have lengths := congrArg String.length same
    simp only [moved, rvalue, if_true, String.length_append] at lengths
    have front : (toString "std::move(").length = 10 := rfl
    have code_length : (toString code).length = code.length := rfl
    omega
  · intro fixed
    exact moved_of_ne fixed code

section

variable {scope : TypeScope} {bareType targetType : TypeRef}

/-- A parameter of a bare type is passed on as one of another type with the same classification if
and only if the marks of the other type make no difference. -/
theorem passedAlike_iff (bare : Shape.IsBare bareType.spelling)
    (same : scope.classify bareType.spelling = scope.classify targetType.spelling)
    (direct : (scope.classify targetType.spelling).isDirect) (site : ParamSite) (name : String) :
    PassedAlike (passParam scope site ⟨name, bareType⟩) (passParam scope site ⟨name, targetType⟩) ↔
      PassesUnmarked (Shape.ofSpelling targetType.spelling)
        (scope.classify targetType.spelling) := by
  have bare_moved (code : String) : moved (Shape.ofSpelling bareType.spelling) code = code :=
    moved_of_ne (by simp [bare.eq]) code
  have bare_fixed : isMutableRef (Shape.ofSpelling bareType.spelling) = false := by
    simp [bare.eq, isMutableRef]
  have bare_value : (Shape.ofSpelling bareType.spelling).isPointer = false := by
    simp [bare.eq, Shape.isPointer]
  cases classified : scope.classify targetType.spelling with
  | primitive target =>
      simp only [passParam, same, classified, PassedAlike, PassesUnmarked, bare_moved, true_and]
      rw [eq_comm, moved_eq_self_iff]
  | enumRef native enumerators =>
      cases written : isMutableRef (Shape.ofSpelling targetType.spelling) <;>
        simp [passParam, same, classified, PassedAlike, PassesUnmarked, bare_fixed, written]
  | recordRef native complete =>
      cases pointed : (Shape.ofSpelling targetType.spelling).isPointer with
      | true =>
          have pointer : (Shape.ofSpelling targetType.spelling).indirection = .pointer := by
            simpa [Shape.isPointer] using pointed
          simp [passParam, same, classified, PassedAlike, PassesUnmarked, bare_value, pointed,
            pointer]
      | false =>
          have value : (Shape.ofSpelling targetType.spelling).indirection ≠ .pointer := by
            simpa [Shape.isPointer] using pointed
          simp only [passParam, same, classified, PassedAlike, PassesUnmarked, bare_value, pointed,
            bare_moved, Bool.false_eq_true, if_false, true_and, ne_eq, value, not_false_eq_true]
          rw [eq_comm, moved_eq_self_iff]
  | _ => simp [classified, Classification.isDirect] at direct

/-! ## Results -/

theorem isVoid_eq_true_iff (shape : Shape) :
    isVoid shape = true ↔ shape.base = "void" ∧ shape.indirection = .none := by
  simp [isVoid]

/-- A plan that hands something back is unlike one for which there is no result. -/
theorem not_returnedAlike_nothing {plan : ResultPlan} (filled : plan ≠ .nothing) :
    ¬ReturnedAlike plan .nothing := by
  rintro ⟨-, forward⟩
  have statements := forward .destroy
  cases plan with
  | nothing => exact filled rfl
  | _ => simp [ResultPlan.forward] at statements

/-- A handle for the result is unlike a dropped result. -/
theorem not_returnedAlike_handle (type : String) (remark : Stmt) (takeAddress : Bool) :
    ¬ReturnedAlike (.dropped type remark) (.handle takeAddress) := by
  rintro ⟨-, forward⟩
  have statements := forward .destroy
  simp [ResultPlan.forward] at statements

/-- A result of a bare type comes back as one of another type with the same classification if and
only if the marks of the other type make no difference. -/
theorem returnedAlike_iff (bare : Shape.IsBare bareType.spelling)
    (bare_ne_void : bareType.spelling ≠ "void")
    (same : scope.classify bareType.spelling = scope.classify targetType.spelling)
    (direct : (scope.classify targetType.spelling).isDirect) :
    ReturnedAlike (planResult scope bareType) (planResult scope targetType) ↔
      ReturnsUnmarked (Shape.ofSpelling targetType.spelling)
        (scope.classify targetType.spelling) := by
  cases void : isVoid (Shape.ofSpelling targetType.spelling) with
  | true =>
      have nothing : planResult scope targetType = .nothing := by
        simp [planResult, (isVoid_eq_true_iff _).mp void]
      have filled : planResult scope bareType ≠ .nothing := by
        cases classified : scope.classify targetType.spelling <;>
          simp [planResult, bare.eq, bare_ne_void, same, classified]
      rw [nothing]
      refine iff_of_false (not_returnedAlike_nothing filled) ?_
      cases scope.classify targetType.spelling <;> simp [ReturnsUnmarked, void]
  | false =>
      have not_void : ¬((Shape.ofSpelling targetType.spelling).base = "void" ∧
          (Shape.ofSpelling targetType.spelling).indirection = .none) := by
        rw [← isVoid_eq_true_iff, void]
        exact Bool.false_ne_true
      cases classified : scope.classify targetType.spelling with
      | primitive target =>
          simp [planResult, bare.eq, bare_ne_void, not_void, same, classified, ReturnsUnmarked,
            void, ReturnedAlike]
      | enumRef native enumerators =>
          simp [planResult, bare.eq, bare_ne_void, not_void, same, classified, ReturnsUnmarked,
            void, ReturnedAlike]
      | recordRef native complete =>
          simp only [planResult, bare.eq, bare_ne_void, not_void, same, classified, ReturnsUnmarked,
            void, false_and, if_false, true_and]
          cases (Shape.ofSpelling targetType.spelling).indirection with
          | pointer => simp [not_returnedAlike_handle]
          | lvalueRef => simp [not_returnedAlike_handle]
          | _ => simp [ReturnedAlike]
      | _ => simp [classified, Classification.isDirect] at direct

/-! ## Names and their targets -/

/-- A value whose type is another name for a primitive type, an enum or a record crosses the
boundary as one of the type itself if and only if the marks of that type make no difference. -/
theorem alias_lowered_alike_iff {name target last : String} {links : Nat}
    (named : IsAliasName name)
    (stored : scope.registry.find? name = some (.synonym (some target)))
    (unmapped : scope.overrides[name]? = none)
    (chain : Chain scope.registry links name last) (short : links ≤ maxDepth)
    (direct : (scope.classify target).isDirect) :
    (trimmed target = target → scope.classify name = scope.classify target) ∧
      (scope.classify name = scope.classify target →
        ∀ namedType targetType : TypeRef, namedType.spelling = name →
          targetType.spelling = target →
            (∀ (site : ParamSite) (param : String),
              PassedAlike (passParam scope site ⟨param, namedType⟩)
                  (passParam scope site ⟨param, targetType⟩) ↔
                PassesUnmarked (Shape.ofSpelling target) (scope.classify target)) ∧
            (ReturnedAlike (planResult scope namedType) (planResult scope targetType) ↔
              ReturnsUnmarked (Shape.ofSpelling target) (scope.classify target))) := by
  constructor
  · intro target_trimmed
    have stands : scope.registry.target? name = some target := by
      simp [Registry.target?, stored, Registry.Entry.target?]
    exact TypeScope.classify_eq_of_target (Shape.trimmed_of_isBare named.isBare) named.ne_empty
      unmapped stands chain short target_trimmed direct
  · rintro same namedType targetType rfl rfl
    exact ⟨passedAlike_iff named.isBare same direct,
      returnedAlike_iff named.isBare named.ne_void same direct⟩

end

/-- A record, a name for pointers to it, and another name for that name. -/
def pointerScope : TypeScope where
  registry := Registry.empty.addAll
    [("Foo", .record true), ("FooPtr", .synonym (some "Foo *")),
      ("FooHandle", .synonym (some "FooPtr"))]
  overrides := ∅

theorem classify_fooPtr : pointerScope.classify "FooPtr" = .recordRef "Foo" true := by
  decide +kernel

theorem classify_foo_pointer : pointerScope.classify "Foo *" = .recordRef "Foo" true := by
  decide +kernel

theorem isAliasName_fooPtr : IsAliasName "FooPtr" where
  ne_empty := by decide
  ne_void := by decide
  isBare := Shape.isBare_of_isPlain (List.all_eq_true.mp (by decide))

theorem chain_fooPtr : Chain pointerScope.registry 1 "FooPtr" "Foo *" := by
  have stands : pointerScope.registry.target? "FooPtr" = some "Foo *" := by
    decide +kernel
  exact .link stands (.last (by decide +kernel))

/-- A name for a name has no marks to hide. -/
theorem fooHandle_lowered_as_fooPtr :
    (∀ (site : ParamSite) (param : String),
      PassedAlike (passParam pointerScope site ⟨param, .plain "FooHandle"⟩)
        (passParam pointerScope site ⟨param, .plain "FooPtr"⟩)) ∧
      ReturnedAlike (planResult pointerScope (.plain "FooHandle"))
        (planResult pointerScope (.plain "FooPtr")) := by
  have named : IsAliasName "FooHandle" :=
    ⟨by decide, by decide, Shape.isBare_of_isPlain (List.all_eq_true.mp (by decide))⟩
  have stored : pointerScope.registry.find? "FooHandle" = some (.synonym (some "FooPtr")) := by
    decide +kernel
  have unmapped : pointerScope.overrides["FooHandle"]? = none := by
    decide +kernel
  have stands : pointerScope.registry.target? "FooHandle" = some "FooPtr" := by
    decide +kernel
  have direct : (pointerScope.classify "FooPtr").isDirect := by
    rw [classify_fooPtr]
    rfl
  obtain ⟨same, alike⟩ :=
    alias_lowered_alike_iff named stored unmapped (.link stands chain_fooPtr) (by decide) direct
  obtain ⟨passed, returned⟩ := alike (same rfl) (.plain "FooHandle") (.plain "FooPtr") rfl rfl
  rw [classify_fooPtr, isAliasName_fooPtr.isBare.eq] at passed returned
  constructor
  · intro site param
    exact (passed site param).mpr (by simp [PassesUnmarked])
  · exact returned.mpr (by simp [ReturnsUnmarked, isVoid])

/-- A name for pointers hides the mark by which its target is passed on without a guard and comes
back as a handle. -/
theorem fooPtr_not_lowered_as_foo_pointer :
    IsAliasName "FooPtr" ∧
      pointerScope.registry.find? "FooPtr" = some (.synonym (some "Foo *")) ∧
      pointerScope.overrides["FooPtr"]? = none ∧ pointerScope.overrides["Foo *"]? = none ∧
      Builtin.primitive? "FooPtr" = none ∧ Builtin.primitive? "Foo *" = none ∧
      Chain pointerScope.registry 1 "FooPtr" "Foo *" ∧
      pointerScope.classify "Foo *" = .recordRef "Foo" true ∧
      (∀ (site : ParamSite) (param : String),
        ¬PassedAlike (passParam pointerScope site ⟨param, .plain "FooPtr"⟩)
          (passParam pointerScope site ⟨param, .plain "Foo *"⟩)) ∧
      ¬ReturnedAlike (planResult pointerScope (.plain "FooPtr"))
        (planResult pointerScope (.plain "Foo *")) := by
  have bare : Shape.IsBare (TypeRef.plain "FooPtr").spelling := isAliasName_fooPtr.isBare
  have spelled : (TypeRef.plain "Foo *").spelling = "Foo *" := rfl
  have same : pointerScope.classify (TypeRef.plain "FooPtr").spelling =
      pointerScope.classify (TypeRef.plain "Foo *").spelling :=
    classify_fooPtr.trans classify_foo_pointer.symm
  have direct : (pointerScope.classify (TypeRef.plain "Foo *").spelling).isDirect := by
    rw [spelled, classify_foo_pointer]
    rfl
  have shape : Shape.ofSpelling "Foo *" = ⟨"Foo", .pointer, false⟩ := by
    decide +kernel
  refine ⟨isAliasName_fooPtr, by decide +kernel, by decide +kernel, by decide +kernel, by decide,
    by decide, chain_fooPtr, classify_foo_pointer, ?_, ?_⟩
  · intro site param
    rw [passedAlike_iff bare same direct site param, spelled, classify_foo_pointer, shape]
    simp [PassesUnmarked]
  · rw [returnedAlike_iff bare isAliasName_fooPtr.ne_void same direct, spelled,
      classify_foo_pointer, shape]
    simp [ReturnsUnmarked]

end Wrapper
end HeaderBinding
