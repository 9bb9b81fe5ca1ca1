import HeaderBinding.Proofs.Classification.Support
import HeaderBinding.Proofs.Wrapper.Body
import HeaderBinding.Proofs.Wrapper.Indentation

/-!
# Results of wrapper functions

A wrapper function without a result never returns a value; any other one returns a value wherever it
returns, and its last statement returns. This rests on the default values of the result types, for a
function that cannot go on is left with one.
-/

namespace HeaderBinding
namespace Wrapper

open Text (trim dropFront?)

/-! ## Default values -/

/-- A type without the blanks at its ends and without a leading `const`. -/
def plainType (type : String) : String :=
  let s := trim type.toList
  String.ofList (trim ((dropFront? "const ".toList s).getD s))

/-- Only `void` has no default value. -/
theorem defaultValue?_eq_none_iff (type : String) :
    defaultValue? type = none ↔ plainType type = "void" := by
  simp only [defaultValue?, plainType]
  repeat' split
  all_goals simp_all

theorem ne_void_of_plainType_ne {type : String} (valued : plainType type ≠ "void") :
    type ≠ "void" := by
  rintro rfl
  exact valued (by decide +kernel)

/-- The result type has no default value exactly if there is no result. -/
def HasDefault (type : String) : Prop :=
  defaultValue? type = none ↔ type = "void"

theorem hasDefault_void : HasDefault "void" := by
  have no_value : defaultValue? "void" = none := by
    decide +kernel
  simp [HasDefault, no_value]

theorem hasDefault_of_plainType_ne {type : String} (valued : plainType type ≠ "void") :
    HasDefault type := by
  refine iff_of_false ?_ (ne_void_of_plainType_ne valued)
  rwa [defaultValue?_eq_none_iff]

/-! ## Returns -/

/-- The value that a statement returns, if it returns at all. -/
@[simp]
def Stmt.returned? : Stmt → Option (Option Expr)
  | .ret value? => some value?
  | _ => none

/-- What is returned by statements or inside them. -/
def returns (body : List Stmt) : List (Option Expr) :=
  (flattenAll body).filterMap Stmt.returned?

/-- The statements return as those of a function with this result type have to: without a value if
there is no result, and otherwise with a value and at their end at the latest. -/
def ReturnsAs (type : String) (body : List Stmt) : Prop :=
  if type = "void" then ∀ value? ∈ returns body, value? = none
  else
    (∀ value? ∈ returns body, value?.isSome) ∧
      ∃ value, body.getLast? = some (.ret (some value))

/-- The statements leave the function only with the default value of its result type. -/
def OnlyFails (type : String) (body : List Stmt) : Prop :=
  ∀ value? ∈ returns body, value? = (defaultValue? type).map Expr.text

@[simp]
theorem returns_append (left right : List Stmt) :
    returns (left ++ right) = returns left ++ returns right := by
  simp [returns]

section

variable {type : String} {front back : List Stmt}

theorem OnlyFails.append (front_fails : OnlyFails type front) (back_fails : OnlyFails type back) :
    OnlyFails type (front ++ back) := by
  intro value? member
  rw [returns_append, List.mem_append] at member
  exact member.elim (front_fails value?) (back_fails value?)

/-- Statements that only fail may stand before those that return. -/
theorem ReturnsAs.prepend (back_returns : ReturnsAs type back) (settled : HasDefault type)
    (front_fails : OnlyFails type front) : ReturnsAs type (front ++ back) := by
  simp only [ReturnsAs, returns_append, List.mem_append] at back_returns ⊢
  by_cases void : type = "void"
  · rw [if_pos void] at back_returns ⊢
    rintro value? (early | late)
    · rw [front_fails value? early, settled.mpr void, Option.map_none]
    · exact back_returns value? late
  · rw [if_neg void] at back_returns ⊢
    obtain ⟨valued, value, last⟩ := back_returns
    refine ⟨?_, value, by simp [List.getLast?_append, last]⟩
    rintro value? (early | late)
    · -- There is a result, so there is a default value for those who leave early.
      obtain ⟨default, found⟩ := Option.ne_none_iff_exists'.mp (mt settled.mp void)
      rw [front_fails value? early, found]
      rfl
    · exact valued value? late

theorem returnsAs_failWith (settled : HasDefault type) : ReturnsAs type [failWith type] := by
  have returned : returns [failWith type] = [(defaultValue? type).map Expr.text] := rfl
  rw [ReturnsAs, returned]
  by_cases void : type = "void"
  · rw [if_pos void, settled.mpr void]
    simp
  · obtain ⟨default, found⟩ := Option.ne_none_iff_exists'.mp (mt settled.mp void)
    simp [void, failWith, found]

end

/-! ## Statements of wrapper functions -/

theorem Prepares.onlyFails {site : ParamSite} {name type : String} {treated : Treatment}
    {prelude : List Stmt} {blocked? : Option Stmt}
    (prepares : Prepares site name treated prelude blocked?) (exits : site.fail = failWith type) :
    OnlyFails type prelude := by
  cases prepares with
  | guarded message =>
      simp [OnlyFails, returns, exits, failWith]
  | _ => simp [OnlyFails, returns]

theorem onlyFails_preludes (scope : TypeScope) {site : ParamSite} {type : String}
    (exits : site.fail = failWith type) (params : List Api.Param) :
    OnlyFails type (preludes scope site params) := by
  induction params with
  | nil => exact List.forall_mem_nil _
  | cons param rest induction =>
      exact ((prepares_passParam scope site param).onlyFails exits).append induction

/-- No mapping of the user has the type `void` for its target. -/
def MapsToValues (overrides : OverrideTable) : Prop :=
  ∀ (spelling : String) (mapping : Mapping), overrides[spelling]? = some mapping →
    plainType mapping.target ≠ "void"

theorem plainType_ne_void_of_mem_targets :
    ∀ target ∈ Builtin.targets, plainType target ≠ "void" := by
  decide +kernel

section

variable {scope : TypeScope}

/-- A result is of a type with a default value, unless there is no result. -/
theorem Plans.eq_nothing_or_plainType_ne {result : TypeRef} {plan : ResultPlan}
    (plans : Plans scope result plan) (valued : MapsToValues scope.overrides) :
    plan = .nothing ∨ plainType plan.type ≠ "void" := by
  have supported := scope.supports_classify result.spelling
  have fixed : ∀ type ∈ ["int", handleType, genericType], plainType type ≠ "void" := by
    decide +kernel
  cases plans with
  | nothing => exact .inl rfl
  | primitive classified =>
      rw [classified] at supported
      cases supported with
      | primitive known => exact .inr (plainType_ne_void_of_mem_targets _ known)
  | enumRef => exact .inr (fixed _ (by simp [ResultPlan.type]))
  | mapped classified =>
      rw [classified] at supported
      cases supported with
      | mapped stored => exact .inr (valued _ _ stored)
  | handle | droppedRecord | droppedSequence | droppedUnknown =>
      exact .inr (fixed _ (by simp [ResultPlan.type]))

theorem Plans.hasDefault {result : TypeRef} {plan : ResultPlan} (plans : Plans scope result plan)
    (valued : MapsToValues scope.overrides) : HasDefault plan.type := by
  rcases plans.eq_nothing_or_plainType_ne valued with rfl | other
  · exact hasDefault_void
  · exact hasDefault_of_plainType_ne other

/-- The statements that hand a result back return as its type says. -/
theorem Plans.returnsAs_forward {result : TypeRef} {plan : ResultPlan}
    (plans : Plans scope result plan) (valued : MapsToValues scope.overrides) (call : Expr) :
    ReturnsAs plan.type (plan.forward call) := by
  rcases plans.eq_nothing_or_plainType_ne valued with rfl | other
  · simp [ReturnsAs, ResultPlan.type, ResultPlan.forward, returns]
  · have not_void : plan.type ≠ "void" := ne_void_of_plainType_ne other
    have settled : HasDefault plan.type := hasDefault_of_plainType_ne other
    cases plans with
    | nothing => exact absurd rfl not_void
    | primitive | enumRef | mapped | handle =>
        rw [ReturnsAs, if_neg not_void]
        simp [ResultPlan.forward, returns]
    | droppedRecord | droppedSequence | droppedUnknown =>
        change ReturnsAs _ ([_, _] ++ [failWith _])
        refine (returnsAs_failWith settled).prepend settled ?_
        simp [OnlyFails, returns]

end

namespace Member

variable {scope : TypeScope} {model : Api.Class} {member : Member}

theorem hasDefault_result (valued : MapsToValues scope.overrides) :
    HasDefault (member.wrapped scope model).result := by
  cases member with
  | creator => exact hasDefault_void
  | method function => exact (plans_planResult scope function.result).hasDefault valued

theorem onlyFails_opening :
    OnlyFails (member.wrapped scope model).result (member.opening scope model) := by
  cases member with
  | creator => exact List.forall_mem_nil _
  | method function =>
      simp only [opening, fail_site]
      split
      · exact List.forall_mem_nil _
      · simp [OnlyFails, objectGuard, returns, failWith]

theorem returnsAs_closing (valued : MapsToValues scope.overrides) :
    ReturnsAs (member.wrapped scope model).result (member.closing scope model) := by
  cases member with
  | creator =>
      simp [ReturnsAs, wrapped, ofCreator, closing, returns]
  | method function =>
      exact (plans_planResult scope function.result).returnsAs_forward valued _

theorem returnsAs_wrapped (valued : MapsToValues scope.overrides) :
    ReturnsAs (member.wrapped scope model).result (member.wrapped scope model).body := by
  have settled : HasDefault (member.wrapped scope model).result := hasDefault_result valued
  by_cases can : CanCall scope model member.params
  · have guards_fail : OnlyFails (member.wrapped scope model).result
        (member.opening scope model ++
          preludes scope (member.site scope model) member.params) :=
      onlyFails_opening.append (onlyFails_preludes scope fail_site member.params)
    rw [body_wrapped can]
    exact (returnsAs_closing valued).prepend settled guards_fail
  · obtain ⟨remarks, message, body_eq⟩ := isUnavailable_wrapped can
    have reports_only : OnlyFails (member.wrapped scope model).result
        (remarks.map .todo ++ [.report message]) := by
      simp [OnlyFails, returns]
    rw [body_eq, List.append_cons]
    exact (returnsAs_failWith settled).prepend settled reports_only

end Member

/-- Every wrapper function of a class returns as its result type says, if no mapping has the type
`void` for its target. -/
theorem returnsAs_of_mem_methods (scope : TypeScope) (family base : String) (model : Api.Class)
    (valued : MapsToValues scope.overrides) :
    ∀ method ∈ (ofClass scope family base model).methods, ReturnsAs method.result method.body := by
  rw [forall_mem_methods_ofClass]
  intro member _
  exact member.returnsAs_wrapped valued

/-! ## A class -/

/-- A scope with a record, and with a type that is mapped. -/
def pointScope : TypeScope where
  registry := Registry.empty.addAll [("Point", .record true), ("Plane", .record true)]
  overrides := (∅ : OverrideTable).insert "Point" ⟨some "const Vector3", none, some "toVector"⟩

/-- A class with a constructor, a function that leaves early without an object or an argument, one
with a mapped result and one that cannot be called. -/
def shapeClass : Api.Class where
  qualifiedName := "Shape"
  methods :=
    [⟨"mirror", .plain "void", [⟨"plane", .plain "Plane &"⟩], false, false⟩,
      ⟨"center", .plain "Point", [], false, true⟩,
      ⟨"apply", .plain "double", [⟨"change", .plain "Transform &"⟩], true, false⟩]
  creators := [⟨[], .plain "Shape"⟩]
  isDefinition := true
  isComplete := true

/-- The result types of the functions that wrap it and the lines of their bodies. -/
def shapeRows : List (String × List (Nat × String)) :=
  [("void",
      [(0, "this->destroy();"), (0, "this->native = new Shape();"), (0, "this->owned = true;")]),
    ("void",
      [(0, "if (!this->native) \x7b"), (1, "ERR_PRINT(\"Native pointer is null for Shape\");"),
        (1, "return;"), (0, "\x7d"),
        (0, "if (!plane) \x7b"), (1, "ERR_PRINT(\"Null plane passed to Shape::mirror\");"),
        (1, "return;"), (0, "\x7d"),
        (0,
          "reinterpret_cast<Shape *>(this->native)->mirror(*reinterpret_cast<Plane *>(plane));")]),
    ("const Vector3",
      [(0, "if (!this->native) \x7b"), (1, "ERR_PRINT(\"Native pointer is null for Shape\");"),
        (1, "return \x7b\x7d;"), (0, "\x7d"),
        (0, "auto _ret = reinterpret_cast<const Shape *>(this->native)->center();"),
        (0, "return toVector(_ret);")]),
    ("double",
      [(0, "// TODO: convert Variant to Transform & for change"),
        (0, "ERR_PRINT(\"Automatic forwarding not available for Shape::apply\");"),
        (0, "return 0.0;")])]

theorem mapsToValues_pointScope : MapsToValues pointScope.overrides := by
  intro spelling mapping stored
  obtain ⟨-, rfl⟩ :
      "Point" = spelling ∧ ⟨some "const Vector3", none, some "toVector"⟩ = mapping := by
    simpa [pointScope, Std.ExtTreeMap.getElem?_insert] using stored
  decide +kernel

theorem returnsAs_shapeClass :
    MapsToValues pointScope.overrides ∧
      (ofClass pointScope "Godot" "RefCounted" shapeClass).methods.map
          (fun method => (method.result, rowsAll method.body)) = shapeRows ∧
      ∀ method ∈ (ofClass pointScope "Godot" "RefCounted" shapeClass).methods,
        ReturnsAs method.result method.body := by
  refine ⟨mapsToValues_pointScope, by decide +kernel, ?_⟩
  exact returnsAs_of_mem_methods pointScope "Godot" "RefCounted" shapeClass mapsToValues_pointScope

end Wrapper
end HeaderBinding
