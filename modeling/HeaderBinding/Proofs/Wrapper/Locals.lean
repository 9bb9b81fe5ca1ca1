import HeaderBinding.Proofs.Wrapper.Body
import Mathlib.Data.List.Pairwise

/-!
# Names declared in wrapper functions

A wrapper function declares its parameters, a local for each parameter that is converted or
replaced, and a local for the result. The names of these locals are made from those of the
parameters, so they are not always new. `nodup_declared_iff` says when they are.
-/

namespace HeaderBinding

namespace Identifier

/-- The name is an identifier of ASCII characters: letters, digits and underscores, the first of
which is no digit. -/
def IsAscii (name : String) : Prop :=
  name ≠ "" ∧ name.toList.head?.all (fun c => !c.isDigit) ∧ name.toList.all isWordChar

instance (name : String) : Decidable (IsAscii name) :=
  inferInstanceAs (Decidable (_ ∧ _))

theorem IsAscii.safe_eq {name : String} (ascii : IsAscii name) : safe name = name := by
  have kept : safeChars name.toList = name.toList := by
    rw [safeChars, List.map_congr_left, List.map_id]
    intro c member
    simp [List.all_eq_true.mp ascii.2.2 c member]
  rw [safe, kept, String.ofList_toList]

end Identifier

namespace Wrapper

/-! ## Locals -/

/-- The name of the local that a statement declares. -/
@[simp]
def Stmt.local? : Stmt → Option String
  | .declare _ name | .bind name _ => some name
  | _ => none

/-- The names of all locals that are declared by statements or inside them. -/
def locals (body : List Stmt) : List String :=
  (flattenAll body).filterMap Stmt.local?

/-- The names of the parameters and the locals of a function. -/
def Method.declared (method : Method) : List String :=
  method.params.map Param.name ++ locals method.body

/-- The local that is declared for a parameter with a name. -/
@[simp]
def Treatment.local? (name : String) : Treatment → Option String
  | .converted => some (nativeName name)
  | .replaced => some (placeholderName name)
  | .direct | .guarded | .blocked => none

@[simp]
theorem locals_append (left right : List Stmt) :
    locals (left ++ right) = locals left ++ locals right := by
  simp [locals]

theorem Prepares.locals_eq {site : ParamSite} {name type : String} {treated : Treatment}
    {prelude : List Stmt} {blocked? : Option Stmt}
    (prepares : Prepares site name treated prelude blocked?) (exits : site.fail = failWith type) :
    locals prelude = (treated.local? name).toList := by
  cases prepares with
  | guarded message =>
      simp [locals, exits, failWith]
  | _ => rfl

theorem locals_preludes (scope : TypeScope) {site : ParamSite} {type : String}
    (exits : site.fail = failWith type) (params : List Api.Param) :
    locals (preludes scope site params) = params.filterMap fun param =>
      (treatment scope param.type).local? (Identifier.safe param.name) := by
  induction params with
  | nil => rfl
  | cons param rest induction =>
      have first := (prepares_passParam scope site param).locals_eq exits
      rw [preludes, List.flatMap_cons, locals_append, first, ← preludes, induction,
        List.filterMap_cons]
      cases (treatment scope param.type).local? (Identifier.safe param.name) <;> rfl

/-- The native result is kept in a local until it is converted. -/
def ResultPlan.keepsResult : ResultPlan → Bool
  | value .. => true
  | nothing | handle _ | dropped .. => false

theorem Plans.locals_forward {scope : TypeScope} {result : TypeRef} {plan : ResultPlan}
    (plans : Plans scope result plan) (call : Expr) :
    locals (plan.forward call) = if plan.keepsResult then [resultName] else [] := by
  cases plans <;> rfl

namespace Member

/-- The native result of the member is kept in a local. -/
def keepsResult (scope : TypeScope) : Member → Bool
  | creator _ => false
  | method function => (planResult scope function.result).keepsResult

variable {scope : TypeScope} {model : Api.Class} {member : Member}

theorem locals_opening : locals (member.opening scope model) = [] := by
  cases member with
  | creator => rfl
  | method function =>
      simp only [opening]
      split <;> rfl

theorem locals_closing : locals (member.closing scope model) =
    if member.keepsResult scope then [resultName] else [] := by
  cases member with
  | creator => rfl
  | method function => exact (plans_planResult scope function.result).locals_forward _

theorem declared_wrapped (can : CanCall scope model member.params) :
    (member.wrapped scope model).declared =
      (member.params.map fun param => Identifier.safe param.name) ++
        ((member.params.filterMap fun param =>
            (treatment scope param.type).local? (Identifier.safe param.name)) ++
          if member.keepsResult scope then [resultName] else []) := by
  rw [Method.declared, params_wrapped, body_wrapped can, locals_append, locals_append,
    locals_opening, List.nil_append, locals_preludes scope fail_site, locals_closing]

theorem declared_wrapped_of_not (cannot : ¬CanCall scope model member.params) :
    (member.wrapped scope model).declared =
      member.params.map fun param => Identifier.safe param.name := by
  obtain ⟨remarks, message, body_eq⟩ := isUnavailable_wrapped cannot
  rw [Method.declared, params_wrapped, body_eq]
  simp [locals, failWith]

end Member

/-! ## Names that are not new -/

theorem nativeName_inj {first second : String} (same : nativeName first = nativeName second) :
    first = second := by
  rw [nativeName, nativeName, ← String.toList_inj] at same
  simpa [toString, String.toList_inj] using same

theorem placeholderName_inj {first second : String}
    (same : placeholderName first = placeholderName second) : first = second := by
  rw [placeholderName, placeholderName, ← String.toList_inj] at same
  simpa [toString, String.toList_inj] using same

theorem nativeName_ne_resultName (name : String) : nativeName name ≠ resultName := by
  intro same
  have last := congrArg (·.toList.getLast?) same
  simp [nativeName, resultName, toString] at last

theorem placeholderName_ne_resultName (name : String) : placeholderName name ≠ resultName := by
  intro same
  have first := congrArg (·.toList.head?) same
  simp [placeholderName, resultName, toString] at first

/-- The names of parameters are identifiers and differ. -/
def WellNamed (params : List Api.Param) : Prop :=
  (∀ param ∈ params, Identifier.IsAscii param.name) ∧ (params.map Api.Param.name).Nodup

/-- Two names that are declared for parameters, or for the result if it is kept, are the same. -/
inductive Clashes (scope : TypeScope) (keepsResult : Bool) (params : List Api.Param) : Prop
  /-- A parameter has the name of the local for the result. -/
  | result (kept : keepsResult) {param : Api.Param} (member : param ∈ params)
      (same : param.name = resultName)
  /-- A parameter has the name of the local for another one. -/
  | param {param other : Api.Param} (member : param ∈ params) (other_mem : other ∈ params)
      (same : (treatment scope param.type).local? param.name = some other.name)
  /-- The locals for two parameters have the same name. -/
  | locals {converted replaced : Api.Param} (converted_mem : converted ∈ params)
      (replaced_mem : replaced ∈ params)
      (converts : treatment scope converted.type = .converted)
      (replaces : treatment scope replaced.type = .replaced)
      (same : nativeName converted.name = placeholderName replaced.name)

section

variable {scope : TypeScope} {params : List Api.Param}

/-- Two locals of the same kind have the same name only if their parameters have. -/
theorem Treatment.eq_or_mixed {first second : Treatment} {name other shared : String}
    (declares : first.local? name = some shared) (again : second.local? other = some shared) :
    name = other ∨
      (first = .converted ∧ second = .replaced ∧ nativeName name = placeholderName other) ∨
      (first = .replaced ∧ second = .converted ∧ nativeName other = placeholderName name) := by
  cases first <;> cases second <;>
    simp only [local?, Option.some.injEq, reduceCtorEq] at declares again
  · exact .inl (nativeName_inj (declares.trans again.symm))
  · exact .inr (.inl ⟨rfl, rfl, declares.trans again.symm⟩)
  · exact .inr (.inr ⟨rfl, rfl, again.trans declares.symm⟩)
  · exact .inl (placeholderName_inj (declares.trans again.symm))

theorem nodup_filterMap_local?_iff (distinct : (params.map Api.Param.name).Nodup) :
    (params.filterMap fun param => (treatment scope param.type).local? param.name).Nodup ↔
      ∀ converted ∈ params, ∀ replaced ∈ params, treatment scope converted.type = .converted →
        treatment scope replaced.type = .replaced →
          nativeName converted.name ≠ placeholderName replaced.name := by
  rw [List.Nodup, List.pairwise_filterMap]
  constructor
  · intro apart converted converted_mem replaced replaced_mem converts replaces same
    have differ : converted ≠ replaced := by
      rintro rfl
      simp [converts] at replaces
    have symmetric : Std.Symm fun first second : Api.Param =>
        ∀ name, (treatment scope first.type).local? first.name = some name →
          ∀ other, (treatment scope second.type).local? second.name = some other →
            name ≠ other :=
      ⟨fun _ _ related name declares other again => (related other again name declares).symm⟩
    exact apart.forall converted_mem replaced_mem differ _ (by rw [converts]; rfl) _
      (by rw [replaces]; rfl) same
  · intro unmixed
    -- Names made in the same way differ because those of the parameters do, so only a name made in
    -- each of the two ways is left to compare.
    have names_apart := List.pairwise_map.mp distinct
    refine names_apart.imp_of_mem ?_
    rintro first second first_mem second_mem differ shared declares _ again rfl
    rcases Treatment.eq_or_mixed declares again with same | ⟨converts, replaces, same⟩ |
      ⟨replaces, converts, same⟩
    · exact differ same
    · exact unmixed first first_mem second second_mem converts replaces same
    · exact unmixed second second_mem first first_mem converts replaces same

theorem nodup_localNames_iff (keepsResult : Bool) (distinct : (params.map Api.Param.name).Nodup) :
    ((params.filterMap fun param => (treatment scope param.type).local? param.name) ++
        if keepsResult then [resultName] else []).Nodup ↔
      ∀ converted ∈ params, ∀ replaced ∈ params, treatment scope converted.type = .converted →
        treatment scope replaced.type = .replaced →
          nativeName converted.name ≠ placeholderName replaced.name := by
  have result_new : ∀ param : Api.Param,
      (treatment scope param.type).local? param.name ≠ some resultName := by
    intro param
    cases treatment scope param.type <;>
      simp [nativeName_ne_resultName, placeholderName_ne_resultName]
  rw [List.nodup_append, nodup_filterMap_local?_iff distinct, and_iff_left]
  refine ⟨by split <;> simp, ?_⟩
  intro name declared other result same
  obtain ⟨param, -, declares⟩ := List.mem_filterMap.mp declared
  obtain ⟨-, rfl⟩ : keepsResult = true ∧ other = resultName := by
    simpa using result
  exact result_new param (same ▸ declares)

theorem forall_name_ne_iff (keepsResult : Bool) :
    (∀ name ∈ params.map Api.Param.name,
        ∀ other ∈ (params.filterMap fun param =>
            (treatment scope param.type).local? param.name) ++
              if keepsResult then [resultName] else [], name ≠ other) ↔
      (∀ param ∈ params, ∀ other ∈ params,
          (treatment scope param.type).local? param.name ≠ some other.name) ∧
        (keepsResult → ∀ param ∈ params, param.name ≠ resultName) := by
  simp only [List.forall_mem_map, List.forall_mem_append, List.mem_filterMap]
  constructor
  · intro apart
    refine ⟨fun param member other other_mem same => ?_, fun kept param member => ?_⟩
    · exact (apart other other_mem).1 _ ⟨param, member, same⟩ rfl
    · exact (apart param member).2 _ (by simp [kept])
  · rintro ⟨params_apart, result_apart⟩ other other_mem
    refine ⟨?_, ?_⟩
    · rintro name ⟨param, member, declares⟩ rfl
      exact params_apart param member other other_mem declares
    · intro name result
      obtain ⟨kept, rfl⟩ : keepsResult = true ∧ name = resultName := by
        simpa using result
      exact result_apart kept other other_mem

/-- Parameters and locals have different names if and only if there is no clash. -/
theorem nodup_names_iff (keepsResult : Bool) (distinct : (params.map Api.Param.name).Nodup) :
    (params.map Api.Param.name ++
        ((params.filterMap fun param => (treatment scope param.type).local? param.name) ++
          if keepsResult then [resultName] else [])).Nodup ↔
      ¬Clashes scope keepsResult params := by
  rw [List.nodup_append, nodup_localNames_iff keepsResult distinct, forall_name_ne_iff]
  constructor
  · rintro ⟨-, unmixed, params_apart, result_apart⟩ clash
    cases clash with
    | result kept member same => exact result_apart kept _ member same
    | param member other_mem same => exact params_apart _ member _ other_mem same
    | locals converted_mem replaced_mem converts replaces same =>
        exact unmixed _ converted_mem _ replaced_mem converts replaces same
  · intro unclashed
    refine ⟨distinct, ?_, ?_, ?_⟩
    · intro converted converted_mem replaced replaced_mem converts replaces same
      exact unclashed (.locals converted_mem replaced_mem converts replaces same)
    · intro param member other other_mem same
      exact unclashed (.param member other_mem same)
    · intro kept param member same
      exact unclashed (.result kept member same)

/-- Names that are identifiers are declared as they are. -/
theorem WellNamed.map_safe (named : WellNamed params) :
    (params.map fun param => Identifier.safe param.name) = params.map Api.Param.name :=
  List.map_congr_left fun param member => (named.1 param member).safe_eq

theorem WellNamed.filterMap_local? (named : WellNamed params) :
    (params.filterMap fun param =>
        (treatment scope param.type).local? (Identifier.safe param.name)) =
      params.filterMap fun param => (treatment scope param.type).local? param.name :=
  List.filterMap_congr fun param member => by rw [(named.1 param member).safe_eq]

end

theorem Member.nodup_declared_wrapped_iff {scope : TypeScope} {model : Api.Class} {member : Member}
    (named : WellNamed member.params) :
    (member.wrapped scope model).declared.Nodup ↔
      (CanCall scope model member.params →
        ¬Clashes scope (member.keepsResult scope) member.params) := by
  by_cases can : CanCall scope model member.params
  · rw [declared_wrapped can, named.map_safe, named.filterMap_local?, nodup_names_iff _ named.2]
    simp [can]
  · rw [declared_wrapped_of_not can, named.map_safe]
    simp [can, named.2]

/-- No wrapper function of a class declares a name twice if and only if no member that can be called
has a parameter or a result whose local takes a name that is already declared. -/
theorem nodup_declared_iff (scope : TypeScope) (family base : String) {model : Api.Class}
    (named : ∀ member ∈ members model, WellNamed member.params) :
    (∀ method ∈ (ofClass scope family base model).methods, method.declared.Nodup) ↔
      ∀ member ∈ keptMembers model, CanCall scope model member.params →
        ¬Clashes scope (member.keepsResult scope) member.params := by
  rw [forall_mem_methods_ofClass]
  refine forall₂_congr fun member kept => ?_
  exact member.nodup_declared_wrapped_iff (named member (mem_members_of_mem_keptMembers kept))

/-! ## Two classes -/

/-- A scope with one enum. -/
def colorScope : TypeScope where
  registry := Registry.empty.addAll [("Color", .enum [⟨"red", 0⟩, ⟨"blue", 1⟩])]
  overrides := ∅

/-- A method with a parameter that is converted, one that is replaced and one that is passed on. -/
def paint : Api.Method where
  name := "paint"
  result := .plain "int"
  params := [⟨"tint", .plain "Color &"⟩, ⟨"pattern", .plain "Texture"⟩, ⟨"weight", .plain "int"⟩]

/-- A class with one method. -/
def painterClass : Api.Class where
  qualifiedName := "Painter"
  methods := [paint]
  isDefinition := true
  isComplete := true

/-- A method one of whose parameters is named as the local for its result. -/
def scale : Api.Method where
  name := "scale"
  result := .plain "int"
  params := [⟨"_ret", .plain "int"⟩]

/-- A class whose method has such a parameter. -/
def scalerClass : Api.Class where
  qualifiedName := "Scaler"
  methods := [scale]
  isDefinition := true
  isComplete := true

theorem wellNamed_paint : WellNamed paint.params :=
  ⟨by decide, by decide⟩

theorem nodup_declared_painterClass :
    (∀ member ∈ members painterClass, WellNamed member.params) ∧
      ∀ method ∈ (ofClass colorScope "Godot" "RefCounted" painterClass).methods,
        method.declared.Nodup := by
  have named : ∀ member ∈ members painterClass, WellNamed member.params := by
    simpa [members, painterClass, Member.params] using wellNamed_paint
  have locals : paint.params.filterMap (fun param =>
      (treatment colorScope param.type).local? param.name) =
        ["tint_native", "converted_pattern"] := by
    decide +kernel
  have new : ¬Clashes colorScope true paint.params := by
    rw [← nodup_names_iff true wellNamed_paint.2, locals]
    decide
  refine ⟨named, (nodup_declared_iff colorScope "Godot" "RefCounted" named).mpr ?_⟩
  intro member kept _
  obtain rfl : member = .method paint := by
    simpa [members, painterClass] using mem_members_of_mem_keptMembers kept
  have keeps : Member.keepsResult colorScope (.method paint) = true := by
    decide +kernel
  rwa [keeps]

/-- The local for the result takes the name of a parameter. -/
theorem not_nodup_declared_scalerClass :
    (∀ member ∈ members scalerClass, WellNamed member.params) ∧
      ∃ method ∈ (ofClass emptyScope "Godot" "RefCounted" scalerClass).methods,
        ¬method.declared.Nodup := by
  have named : ∀ member ∈ members scalerClass, WellNamed member.params := by
    have scale_named : WellNamed scale.params := ⟨by decide, by decide⟩
    simpa [members, scalerClass, Member.params] using scale_named
  refine ⟨named, ofMethod emptyScope scalerClass scale, List.mem_cons_self, ?_⟩
  decide +kernel

end Wrapper
end HeaderBinding
