import HeaderBinding.Proofs.Wrapper.Locals

/-!
# Records without a body

A record that is only declared can be neither passed nor returned by value, so a function that does
so must not be called. A parameter of such a type blocks the call; a result of such a type does not.
-/

namespace HeaderBinding
namespace Wrapper

/-! ## Calls -/

/-- The expression calls a wrapped function, or creates or deletes an object. -/
@[simp]
def Expr.callsNative : Expr → Bool
  | .call .. | .create .. | .delete _ => true
  | .ignore inner | .addressOf inner | .handleOf inner => inner.callsNative
  | .text _ | .destroy | .clearHandle | .setOwned _ => false

/-- The statement itself calls a wrapped function, or creates or deletes an object. -/
@[simp]
def Stmt.callsNative : Stmt → Bool
  | .expr value | .bind _ value | .ret (some value) => value.callsNative
  | _ => false

/-- A statement of the body calls a wrapped function, or creates or deletes an object. -/
def Method.CallsNative (method : Method) : Prop :=
  ∃ stmt ∈ flattenAll method.body, stmt.callsNative

instance (method : Method) : Decidable method.CallsNative :=
  inferInstanceAs (Decidable (∃ stmt ∈ _, _))

/-- The function only reports an error and returns a default value: it calls nothing and declares no
local. -/
structure Method.IsSpared (method : Method) : Prop where
  unavailable : method.IsUnavailable
  calls_nothing : ¬method.CallsNative
  no_locals : locals method.body = []

theorem not_callsNative_failWith (type : String) : ¬(failWith type).callsNative := by
  rw [failWith]
  cases defaultValue? type <;> simp

theorem Method.IsUnavailable.isSpared {method : Method} (unavailable : method.IsUnavailable) :
    method.IsSpared := by
  refine ⟨unavailable, ?_, ?_⟩
  all_goals obtain ⟨remarks, message, body_eq⟩ := unavailable
  · rintro ⟨stmt, member, calls⟩
    simp only [body_eq, flattenAll_append, flattenAll_map_todo, flattenAll, Stmt.flatten,
      flatten_failWith, List.append_nil, List.mem_append, List.mem_map, List.mem_singleton]
      at member
    rcases member with ⟨remark, -, rfl⟩ | rfl | rfl
    · simp at calls
    · simp at calls
    · exact not_callsNative_failWith _ calls
  · simp [body_eq, locals, failWith]

theorem Plans.exists_callsNative {scope : TypeScope} {result : TypeRef} {plan : ResultPlan}
    (plans : Plans scope result plan) {call : Expr} (calls : call.callsNative) :
    ∃ stmt ∈ flattenAll (plan.forward call), stmt.callsNative := by
  cases plans with
  | handle takeAddress =>
      cases takeAddress <;>
        simp [ResultPlan.forward, calls]
  | _ => simp [ResultPlan.forward, calls]

namespace Member

theorem exists_callsNative_closing (scope : TypeScope) (model : Api.Class) (member : Member) :
    ∃ stmt ∈ flattenAll (member.closing scope model), stmt.callsNative := by
  cases member with
  | creator => simp [closing]
  | method function => exact (plans_planResult scope function.result).exists_callsNative rfl

/-- A function is spared if and only if it cannot be called. -/
theorem isSpared_wrapped_iff {scope : TypeScope} {model : Api.Class} {member : Member} :
    (member.wrapped scope model).IsSpared ↔ ¬CanCall scope model member.params := by
  constructor
  · intro spared can
    -- Whatever becomes of the result, the statements at the end hold a call.
    obtain ⟨stmt, stmt_mem, calls⟩ := exists_callsNative_closing scope model member
    refine spared.calls_nothing ⟨stmt, ?_, calls⟩
    rw [body_wrapped can, flattenAll_append]
    exact List.mem_append_right _ stmt_mem
  · intro cannot
    exact (isUnavailable_wrapped cannot).isSpared

end Member

/-! ## Types -/

/-- The spelling is one of a record that is only declared, or of a reference to one. -/
def IsIncomplete (scope : TypeScope) (spelling : String) : Prop :=
  (∃ unknown, scope.classify spelling = .unsupported unknown (some .incompleteRecord)) ∧
    (Shape.ofSpelling spelling).isPointer = false

/-- The spelling is one of a record itself: other names are replaced by what they stand for, and
qualifiers and tags are taken off, but no pointer or reference marks. -/
inductive IsRecordValue (registry : Registry) : String → Prop
  | record {name : String} {complete : Bool}
      (stored : registry.find? name = some (.record complete)) : IsRecordValue registry name
  | synonym {name target : String} (stands : registry.target? name = some target)
      (value : IsRecordValue registry target) : IsRecordValue registry name
  | qualified {spelling : String} (unknown : registry.find? spelling = none)
      (unmarked : (Shape.ofSpelling spelling).indirection = .none)
      (value : IsRecordValue registry (Shape.ofSpelling spelling).base) :
      IsRecordValue registry spelling

theorem treatment_of_isIncomplete {scope : TypeScope} {type : TypeRef}
    (incomplete : IsIncomplete scope type.spelling) : treatment scope type = .blocked := by
  obtain ⟨⟨unknown, classified⟩, value⟩ := incomplete
  simp [treatment, classified, hasDefault, value]

namespace Member

/-- A parameter of the member is an incomplete record or a reference to one. -/
def TakesIncomplete (scope : TypeScope) (member : Member) : Prop :=
  ∃ param ∈ member.params, IsIncomplete scope param.type.spelling

/-- The result of the member is an incomplete record by value. -/
def ReturnsIncomplete (scope : TypeScope) : Member → Prop
  | creator _ => False
  | method function =>
      IsIncomplete scope function.result.spelling ∧
        IsRecordValue scope.registry function.result.spelling

theorem not_canCall_of_takesIncomplete {scope : TypeScope} {member : Member} (model : Api.Class)
    (takes : member.TakesIncomplete scope) : ¬CanCall scope model member.params := by
  rintro ⟨-, unblocked⟩
  obtain ⟨param, param_mem, incomplete⟩ := takes
  exact unblocked param param_mem (treatment_of_isIncomplete incomplete)

end Member

/-- No function that takes or returns an incomplete record by value, or takes a reference to one, is
called if and only if the class cannot be created or every method with such a result has a parameter
that blocks the call. -/
theorem incomplete_isSpared_iff (scope : TypeScope) (model : Api.Class) :
    (∀ member ∈ members model, member.TakesIncomplete scope ∨ member.ReturnsIncomplete scope →
        (member.wrapped scope model).IsSpared) ↔
      model.isForwardable = false ∨ ∀ member ∈ members model, member.ReturnsIncomplete scope →
        ∃ param ∈ member.params, treatment scope param.type = .blocked := by
  simp only [Member.isSpared_wrapped_iff]
  constructor
  · intro spared
    by_cases forwardable : model.isForwardable = false
    · exact .inl forwardable
    · refine .inr fun member member_mem returns => ?_
      exact (not_canCall_iff.mp (spared member member_mem (.inr returns))).resolve_left forwardable
  · rintro holds member member_mem (takes | returns)
    · exact Member.not_canCall_of_takesIncomplete model takes
    · rw [not_canCall_iff]
      exact holds.imp_right fun blocked => blocked member member_mem returns

/-! ## A class -/

/-- A scope with a record that is only declared. -/
def forwardScope : TypeScope where
  registry := Registry.empty.addAll [("Part", .record false)]
  overrides := ∅

/-- A method that returns such a record. -/
def build : Api.Method where
  name := "build"
  result := .plain "Part"
  params := []

/-- A class with such a method. -/
def makerClass : Api.Class where
  qualifiedName := "Maker"
  methods := [build]
  isDefinition := true
  isComplete := true

/-- A method is called although it returns an incomplete record by value. -/
theorem callsNative_makerClass :
    Member.ReturnsIncomplete forwardScope (.method build) ∧
      .method build ∈ members makerClass ∧
      ofMethod forwardScope makerClass build ∈
        (ofClass forwardScope "Godot" "RefCounted" makerClass).methods ∧
      (ofMethod forwardScope makerClass build).CallsNative := by
  have classified :
      forwardScope.classify "Part" = .unsupported "Part" (some .incompleteRecord) := by
    decide +kernel
  have stored : forwardScope.registry.find? "Part" = some (.record false) := by
    decide +kernel
  refine ⟨⟨⟨⟨"Part", classified⟩, by decide +kernel⟩, .record stored⟩, List.mem_cons_self,
    List.mem_cons_self, ?_⟩
  decide +kernel

end Wrapper
end HeaderBinding
