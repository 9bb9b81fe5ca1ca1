import HeaderBinding.Proofs.Wrapper.Members

/-!
# Bodies of wrapper functions

A function that can be called prepares its parameters one after the other and then makes the call;
any other function reports an error and leaves. `Prepares` lists all that can be done for one
parameter, so that what holds of a body is read off a handful of statements.
-/

namespace HeaderBinding
namespace Wrapper

/-! ## Statements inside statements -/

mutual

/-- A statement and all statements inside it, in the order in which they are written. -/
@[simp]
def Stmt.flatten : Stmt → List Stmt
  | .guard condition body => .guard condition body :: flattenAll body
  | stmt => [stmt]

/-- Statements and all statements inside them. -/
@[simp]
def flattenAll : List Stmt → List Stmt
  | [] => []
  | stmt :: rest => stmt.flatten ++ flattenAll rest

end

@[simp]
theorem flattenAll_append (left right : List Stmt) :
    flattenAll (left ++ right) = flattenAll left ++ flattenAll right := by
  induction left with
  | nil => rfl
  | cons stmt rest induction => simp [induction]

@[simp]
theorem flattenAll_map_todo (remarks : List String) :
    flattenAll (remarks.map .todo) = remarks.map .todo := by
  induction remarks with
  | nil => rfl
  | cons remark rest induction => simp [induction]

theorem flatten_failWith (type : String) : (failWith type).flatten = [failWith type] :=
  rfl

theorem failWith_void : failWith "void" = .ret none := by
  have no_value : defaultValue? "void" = none := by
    decide +kernel
  rw [failWith, no_value, Option.map_none]

/-! ## Parameters -/

/-- What is done about a parameter before a call. -/
inductive Treatment where
  /-- It is passed on as part of an expression. -/
  | direct
  /-- It is converted into a local to which the function may write. -/
  | converted
  /-- The function is left if its handle is null. -/
  | guarded
  /-- A local with a default value stands in for it. -/
  | replaced
  /-- Nothing can be passed on. -/
  | blocked
  deriving DecidableEq

/-- What is done about a parameter of the given type. -/
def treatment (scope : TypeScope) (type : TypeRef) : Treatment :=
  let shape := Shape.ofSpelling type.spelling
  match scope.classify type.spelling with
  | .primitive _ => .direct
  | .enumRef .. | .mapped _ => if isMutableRef shape then .converted else .direct
  | .recordRef .. => if shape.isPointer then .direct else .guarded
  | .vectorOf .. => .replaced
  | .unsupported _ obstacle? => if hasDefault obstacle? shape then .replaced else .blocked

/-- The statements to run for a parameter with this name, and why it blocks the call. -/
inductive Prepares (site : ParamSite) (name : String) :
    Treatment → List Stmt → Option Stmt → Prop
  | direct : Prepares site name .direct [] none
  | converted (code : String) :
      Prepares site name .converted [.bind (nativeName name) (.text code)] none
  | guarded (message : String) :
      Prepares site name .guarded
        [.guard (.argumentMissing name) [.report message, site.fail]] none
  | replaced (remark type : String) :
      Prepares site name .replaced [.todo remark, .declare type (placeholderName name)] none
  | blocked (remark : String) : Prepares site name .blocked [] (some (.todo remark))

namespace Prepares

variable {site : ParamSite} {name : String} {treated : Treatment} {prelude : List Stmt}

theorem exists_remark {stmt : Stmt} (prepares : Prepares site name treated prelude (some stmt)) :
    ∃ remark, stmt = .todo remark := by
  cases prepares with
  | blocked remark => exact ⟨remark, rfl⟩

theorem blocked?_eq_none_iff {blocked? : Option Stmt}
    (prepares : Prepares site name treated prelude blocked?) :
    blocked? = none ↔ treated ≠ .blocked := by
  cases prepares <;> simp

end Prepares

section

variable (scope : TypeScope) (site : ParamSite)

theorem prepares_passParam (param : Api.Param) :
    Prepares site (Identifier.safe param.name) (treatment scope param.type)
      (passParam scope site param).prelude (passParam scope site param).blocked? := by
  cases classified : scope.classify param.type.spelling with
  | primitive =>
      simp only [passParam, treatment, classified]
      exact .direct
  | enumRef =>
      simp only [passParam, treatment, classified]
      split
      · exact .converted _
      · exact .direct
  | mapped =>
      simp only [passParam, treatment, classified]
      split
      · exact .converted _
      · exact .direct
  | recordRef =>
      simp only [passParam, treatment, classified]
      split
      · exact .direct
      · exact .guarded _
  | vectorOf =>
      simp only [passParam, treatment, classified]
      exact .replaced _ _
  | unsupported =>
      simp only [passParam, treatment, classified]
      split
      · exact .replaced _ _
      · exact .blocked _

theorem name_passParam (param : Api.Param) :
    (passParam scope site param).param.name = Identifier.safe param.name := by
  simp only [passParam]
  repeat' split
  all_goals rfl

/-- All that is run for parameters before a call. -/
def preludes (params : List Api.Param) : List Stmt :=
  params.flatMap fun param => (passParam scope site param).prelude

/-- A parameter blocks the call by a remark. -/
theorem exists_remarks (params : List Api.Param) :
    ∃ remarks : List String,
      (params.map (passParam scope site)).filterMap PassedParam.blocked? = remarks.map .todo := by
  induction params with
  | nil => exact ⟨[], rfl⟩
  | cons param rest induction =>
      obtain ⟨remarks, induction⟩ := induction
      have prepares := prepares_passParam scope site param
      cases blocked : (passParam scope site param).blocked? with
      | none => exact ⟨remarks, by simp [blocked, induction]⟩
      | some stmt =>
          obtain ⟨remark, rfl⟩ := (blocked ▸ prepares).exists_remark
          exact ⟨remark :: remarks, by simp [blocked, induction]⟩

theorem filterMap_blocked?_eq_nil_iff (params : List Api.Param) :
    (params.map (passParam scope site)).filterMap PassedParam.blocked? = [] ↔
      ∀ param ∈ params, treatment scope param.type ≠ .blocked := by
  simp only [List.filterMap_map, List.filterMap_eq_nil_iff, Function.comp_apply]
  refine forall₂_congr fun param _ => ?_
  exact (prepares_passParam scope site param).blocked?_eq_none_iff

end

/-! ## Results -/

/-- The plans by which a result of the given type may come back. -/
inductive Plans (scope : TypeScope) (result : TypeRef) : ResultPlan → Prop
  | nothing : Plans scope result .nothing
  | primitive {target : String}
      (classified : scope.classify result.spelling = .primitive target) :
      Plans scope result (.value target .asIs)
  | enumRef : Plans scope result (.value "int" .toInt)
  | mapped {mapping : Mapping} (classified : scope.classify result.spelling = .mapped mapping) :
      Plans scope result (.value mapping.target (.mapped mapping))
  | handle (takeAddress : Bool) : Plans scope result (.handle takeAddress)
  | droppedRecord (text : String) : Plans scope result (.dropped handleType (.comment text))
  | droppedSequence (text : String) : Plans scope result (.dropped genericType (.todo text))
  | droppedUnknown (text : String) : Plans scope result (.dropped genericType (.comment text))

theorem plans_planResult (scope : TypeScope) (result : TypeRef) :
    Plans scope result (planResult scope result) := by
  simp only [planResult]
  split
  · exact .nothing
  · split
    · exact .primitive ‹_›
    · exact .enumRef
    · exact .mapped ‹_›
    · split
      · exact .handle false
      · exact .handle true
      · exact .droppedRecord _
    · exact .droppedSequence _
    · exact .droppedUnknown _

/-! ## Functions that can be called -/

/-- The body is that of a function that cannot be called: it reports an error and leaves with a
default value, after remarks on what is missing. -/
def Method.IsUnavailable (method : Method) : Prop :=
  ∃ (remarks : List String) (message : String),
    method.body = remarks.map .todo ++ [.report message, failWith method.result]

/-- A function with these parameters can be called: the class can be named and created, and no
parameter blocks the call. -/
def CanCall (scope : TypeScope) (model : Api.Class) (params : List Api.Param) : Prop :=
  model.isForwardable ∧ ∀ param ∈ params, treatment scope param.type ≠ .blocked

section

variable {scope : TypeScope} {model : Api.Class} {site : ParamSite} {params : List Api.Param}
  {forwarded : List Stmt}

theorem not_canCall_iff : ¬CanCall scope model params ↔
    model.isForwardable = false ∨ ∃ param ∈ params, treatment scope param.type = .blocked := by
  simp only [CanCall, not_and_or, Bool.not_eq_true, not_forall, not_not, exists_prop]

theorem bodyOf_of_canCall (can : CanCall scope model params) :
    bodyOf model.isForwardable site (params.map (passParam scope site)) forwarded = forwarded := by
  have unblocked := (filterMap_blocked?_eq_nil_iff scope site params).mpr can.2
  simp [bodyOf, blockedBody?, unblocked, can.1]

theorem bodyOf_of_not_canCall (cannot : ¬CanCall scope model params) :
    ∃ (remarks : List String) (message : String),
      bodyOf model.isForwardable site (params.map (passParam scope site)) forwarded =
        remarks.map .todo ++ [.report message, site.fail] := by
  obtain ⟨remarks, blocked⟩ := exists_remarks scope site params
  cases remarks with
  | nil =>
      -- Without a remark no parameter blocks the call, so it is the class that cannot be created.
      have unblocked := (filterMap_blocked?_eq_nil_iff scope site params).mp blocked
      have fixed : model.isForwardable = false := by
        by_contra forwardable
        exact cannot ⟨by simpa using forwardable, unblocked⟩
      exact ⟨[], _, by simp [bodyOf, blockedBody?, blocked, fixed, unavailable]; rfl⟩
  | cons remark rest =>
      exact ⟨remark :: rest, _, by simp [bodyOf, blockedBody?, blocked, unavailable]; rfl⟩

end

/-! ## Members -/

namespace Member

/-- The parameters of the member. -/
def params : Member → List Api.Param
  | creator function => function.params
  | method function => function.params

section

variable (scope : TypeScope) (model : Api.Class)

/-- Where the parameters of the member belong. -/
def site : Member → ParamSite
  | creator _ => ⟨model.qualifiedName, constructName, .ret none⟩
  | method function =>
      ⟨model.qualifiedName, function.name, failWith (planResult scope function.result).type⟩

/-- What is passed on to the member. -/
def arguments (member : Member) : List String :=
  (member.params.map (passParam scope (member.site scope model))).map PassedParam.argument

/-- What a call of the member checks first. -/
def opening (member : Member) : List Stmt :=
  match member with
  | creator _ => []
  | method function =>
      if function.isStatic then []
      else [objectGuard model.qualifiedName (member.site scope model).fail]

/-- What the method is called on. -/
def receiver (function : Api.Method) : Receiver :=
  if function.isStatic then .ofClass model.qualifiedName
  else .ofHandle model.qualifiedName function.isConst

/-- The statements that make the call and hand its result back. -/
def closing (member : Member) : List Stmt :=
  match member with
  | creator function =>
      [.expr .destroy, .expr (.create function.result.spelling (member.arguments scope model)),
        .expr (.setOwned true)]
  | method function =>
      (planResult scope function.result).forward
        (.call (receiver model function) function.name (member.arguments scope model))

end

variable {scope : TypeScope} {model : Api.Class} {member : Member}

theorem params_wrapped :
    (member.wrapped scope model).params.map Param.name =
      member.params.map fun param => Identifier.safe param.name := by
  cases member <;>
    simp [wrapped, ofCreator, ofMethod, params, Function.comp_def, name_passParam]

theorem fail_site :
    (member.site scope model).fail = failWith (member.wrapped scope model).result := by
  cases member with
  | creator => exact failWith_void.symm
  | method => rfl

theorem body_wrapped (can : CanCall scope model member.params) :
    (member.wrapped scope model).body =
      member.opening scope model ++ preludes scope (member.site scope model) member.params ++
        member.closing scope model := by
  cases member with
  | creator function =>
      simp only [wrapped, ofCreator]
      refine (bodyOf_of_canCall can).trans ?_
      simp [opening, closing, site, params, arguments, preludes, List.flatMap_map]
  | method function =>
      simp only [wrapped, ofMethod]
      refine (bodyOf_of_canCall can).trans ?_
      simp [opening, closing, site, params, arguments, receiver, preludes, List.flatMap_map]

theorem isUnavailable_wrapped (cannot : ¬CanCall scope model member.params) :
    (member.wrapped scope model).IsUnavailable := by
  rw [Method.IsUnavailable, ← fail_site]
  cases member with
  | creator function => exact bodyOf_of_not_canCall cannot
  | method function => exact bodyOf_of_not_canCall cannot

end Member

/-- The members whose wrapper functions a class has: the first one of each name. -/
def keptMembers (model : Api.Class) : List Member :=
  firstBy (fun member => member.signature.ident) [] (members model)

theorem mem_members_of_mem_keptMembers {model : Api.Class} {member : Member}
    (kept : member ∈ keptMembers model) : member ∈ members model :=
  mem_of_mem_firstBy kept

theorem forall_mem_methods_ofClass (scope : TypeScope) (family base : String) (model : Api.Class)
    (holds : Method → Prop) :
    (∀ method ∈ (ofClass scope family base model).methods, holds method) ↔
      ∀ member ∈ keptMembers model, holds (member.wrapped scope model) := by
  rw [methods_ofClass, List.forall_mem_map, keptMembers]

end Wrapper
end HeaderBinding
