import HeaderBinding.Proofs.Classification.Alias
import HeaderBinding.Proofs.Spelling.Mark

/-!
# Marks behind other names

Marks are counted on one spelling at a time. A mark behind a spelling with a mark makes the type
unsupported, but a mark behind a name is the only one that is seen, whatever marks the name hides.
-/

namespace HeaderBinding

namespace Builtin

theorem primitive?_eq_none_of_indirection {spelling : String}
    (marked : (Shape.ofSpelling spelling).indirection ≠ .none) : primitive? spelling = none := by
  have unmarked : ∀ item ∈ primitives, (Shape.ofSpelling item.1).indirection = .none := by
    decide +kernel
  rw [primitive?, List.lookup_eq_none_iff]
  intro item member
  rw [bne_iff_ne]
  rintro rfl
  exact marked (unmarked item member)

end Builtin

namespace Classification

/-- A type without a known conversion. -/
def isUnsupported : Classification → Bool
  | .unsupported .. => true
  | _ => false

/-- A record. -/
def isRecord : Classification → Bool
  | .recordRef .. => true
  | _ => false

/-- A value crosses the boundary whether or not the mark stands behind its type. -/
def absorbs (mark : Shape.Declarator) (classification : Classification) : Bool :=
  if mark = .pointer then classification.isRecord else !classification.isUnsupported

end Classification

namespace TypeScope

open Shape (Declarator IsBare marked)
open Text

/-- Other names lead from one spelling to another in this many steps. -/
inductive Leads (registry : Registry) : Nat → String → String → Prop where
  | here (name : String) : Leads registry 0 name name
  | link {links : Nat} {name next target : String} (stands : registry.target? name = some next)
      (rest : Leads registry links next target) : Leads registry (links + 1) name target

theorem Leads.chain {registry : Registry} {links : Nat} {name target : String}
    (leads : Leads registry links name target) (final : registry.target? target = none) :
    Chain registry links name target := by
  induction leads with
  | here => exact .last final
  | link stands _ induction => exact .link stands (induction final)

section

variable {scope : TypeScope} {mark : Declarator}

theorem isUnsupported_decorate_iff {spelling base : String} {isConst : Bool}
    {classification : Classification} :
    (decorate spelling ⟨base, mark.indirection, isConst⟩ classification).isUnsupported ↔
      ¬classification.absorbs mark := by
  cases mark with
  | pointer =>
      cases classification <;>
        simp [decorate, Declarator.indirection, Classification.isUnsupported,
          Classification.absorbs, Classification.isRecord]
  | lvalueRef => simp [decorate, Declarator.indirection, Classification.absorbs]
  | rvalueRef => simp [decorate, Declarator.indirection, Classification.absorbs]

/-- Behind a pointer nothing but a record crosses the boundary, whichever mark follows. -/
theorem absorbs_decorate_iff {spelling base : String} {isConst : Bool}
    {classification : Classification} :
    (decorate spelling ⟨base, .pointer, isConst⟩ classification).absorbs mark ↔
      classification.isRecord := by
  cases classification <;>
    simp [decorate, Classification.isUnsupported, Classification.absorbs, Classification.isRecord]

theorem classifyResolved_of_unknown {classifyInner : String → Classification}
    {spelling resolved : String} (unknown : scope.registry.find? resolved = none)
    (marked : (Shape.ofSpelling resolved).indirection ≠ .none) :
    scope.classifyResolved classifyInner spelling resolved =
      if (Shape.ofSpelling resolved).indirection = .multiple then
        .unsupported spelling (some .multipleIndirection)
      else
        decorate spelling (Shape.ofSpelling resolved)
          (classifyInner (Shape.ofSpelling resolved).base) := by
  have decorated := Shape.isDecorated_of_indirection_ne_none marked
  simp only [classifyResolved, Builtin.primitive?_eq_none_of_indirection marked, unknown,
    classifyUnknown, decorated, if_true]

/-- A marked spelling that the scope does not know is classified by its base. -/
theorem classify_of_unknown {spelling : String}
    (unmapped : scope.overrides[trimmed spelling]? = none)
    (unknown : scope.registry.find? (trimmed spelling) = none)
    (marked : (Shape.ofSpelling spelling).indirection ≠ .none) :
    scope.classify spelling =
      if (Shape.ofSpelling spelling).indirection = .multiple then
        .unsupported (trimmed spelling) (some .multipleIndirection)
      else
        decorate (trimmed spelling) (Shape.ofSpelling spelling)
          (scope.classifyWithin maxDepth (Shape.ofSpelling spelling).base) := by
  have final : scope.registry.target? (trimmed spelling) = none := by
    rw [Registry.target?, unknown]
    rfl
  have still_marked : (Shape.ofSpelling (trimmed spelling)).indirection ≠ .none := by
    rwa [Shape.ofSpelling_trimmed]
  rw [classify, classifyWithin_of_chain (Shape.trimmed_ne_empty marked) unmapped (.last final)
    (Nat.zero_le _), classifyResolved_of_unknown unknown still_marked, Shape.ofSpelling_trimmed]

/-- A name for a pointer is classified by what is pointed to. -/
theorem classifyWithin_of_leads (levels : Nat) {links : Nat} {name target : String}
    (name_trimmed : trimmed name = name) (name_ne : name ≠ "")
    (unmapped : scope.overrides[name]? = none)
    (leads : Leads scope.registry links name target) (short : links ≤ maxDepth)
    (unknown : scope.registry.find? target = none)
    (pointer : (Shape.ofSpelling target).indirection = .pointer) :
    scope.classifyWithin (levels + 1) name =
      decorate name (Shape.ofSpelling target)
        (scope.classifyWithin levels (Shape.ofSpelling target).base) := by
  have final : scope.registry.target? target = none := by
    rw [Registry.target?, unknown]
    rfl
  have chain := leads.chain final
  rw [← name_trimmed] at name_ne unmapped chain
  have marked : (Shape.ofSpelling target).indirection ≠ .none := by
    simp [pointer]
  rw [classifyWithin_of_chain name_ne unmapped chain short, name_trimmed,
    classifyResolved_of_unknown unknown marked, pointer, if_neg (by decide)]

/-- A mark behind a spelling of a pointer makes the type unsupported. Behind a name for that
spelling it does so only if the type that the name stands for does not absorb the mark, as a pointer
to a record does. -/
theorem isUnsupported_classify_marked_iff {links : Nat} {name target : String}
    (name_ne : name ≠ "") (bare : IsBare name)
    (leads : Leads scope.registry links name target) (short : links ≤ maxDepth)
    (pointer : (Shape.ofSpelling target).indirection = .pointer)
    (name_unmapped : scope.overrides[name]? = none)
    (named_unmapped : scope.overrides[marked name mark]? = none)
    (spelled_unmapped : scope.overrides[trimmed (marked target mark)]? = none)
    (named_unknown : scope.registry.find? (marked name mark) = none)
    (spelled_unknown : scope.registry.find? (trimmed (marked target mark)) = none) :
    scope.classify (marked target mark) =
        .unsupported (trimmed (marked target mark)) (some .multipleIndirection) ∧
      ((scope.classify (marked name mark)).isUnsupported ↔
        ¬(scope.classifyWithin maxDepth name).absorbs mark) ∧
      (scope.registry.find? target = none →
        ((scope.classifyWithin maxDepth name).absorbs mark ↔
          (scope.classifyWithin (maxDepth - 1) (Shape.ofSpelling target).base).isRecord)) := by
  have target_marked : (Shape.ofSpelling target).indirection ≠ .none := by
    simp [pointer]
  refine ⟨?_, ?_, ?_⟩
  · have twice := Shape.indirection_marked target_marked mark
    rw [classify_of_unknown spelled_unmapped spelled_unknown (by simp [twice]), if_pos twice]
  · have kept := Shape.trimmed_marked bare name_ne mark
    have once := Shape.ofSpelling_marked bare mark
    rw [← kept] at named_unmapped named_unknown
    rw [classify_of_unknown named_unmapped named_unknown (by simp [once, mark.indirection_ne_none]),
      once, if_neg mark.indirection_ne_multiple]
    exact isUnsupported_decorate_iff
  · intro unknown
    have classified : scope.classifyWithin maxDepth name =
        decorate name (Shape.ofSpelling target)
          (scope.classifyWithin (maxDepth - 1) (Shape.ofSpelling target).base) :=
      classifyWithin_of_leads _ (Shape.trimmed_of_isBare bare) name_ne name_unmapped leads short
        unknown pointer
    have shape : Shape.ofSpelling target =
        ⟨(Shape.ofSpelling target).base, .pointer, (Shape.ofSpelling target).isConst⟩ := by
      rw [← pointer]
    rw [classified, shape]
    exact absorbs_decorate_iff

end

/-- A record, names for pointers to it and to numbers, and a name for such a name. -/
def pointerNames : TypeScope where
  registry := Registry.empty.addAll
    [("gp_Pnt", .record true), ("PntPtr", .synonym (some "gp_Pnt *")),
      ("RealPtr", .synonym (some "double *")), ("RealArray", .synonym (some "RealPtr"))]
  overrides := ∅

/-- A reference to an array of numbers is unsupported by either spelling. -/
theorem isUnsupported_realArray_reference :
    pointerNames.classify (marked "double *" .lvalueRef) =
        .unsupported "double * &" (some .multipleIndirection) ∧
      (pointerNames.classify (marked "RealArray" .lvalueRef)).isUnsupported := by
  have bare : IsBare "RealArray" := Shape.isBare_of_isPlain (List.all_eq_true.mp (by decide))
  have array : pointerNames.registry.target? "RealArray" = some "RealPtr" := by
    decide +kernel
  have number : pointerNames.registry.target? "RealPtr" = some "double *" := by
    decide +kernel
  have unmapped (spelling : String) : pointerNames.overrides[spelling]? = none :=
    Std.ExtTreeMap.getElem?_empty
  obtain ⟨spelled, named, pointee⟩ := @isUnsupported_classify_marked_iff pointerNames .lvalueRef 2
    "RealArray" "double *" (by decide) bare (.link array (.link number (.here _))) (by decide)
    (by decide +kernel) (unmapped _) (unmapped _) (unmapped _) (by decide +kernel)
    (by decide +kernel)
  refine ⟨spelled, named.mpr ?_⟩
  rw [pointee (by decide +kernel)]
  decide +kernel

/-- A pointer to a pointer is unsupported, but not if the inner pointer has a name. -/
theorem classify_pntPtr_pointer :
    "PntPtr" ≠ "" ∧ IsBare "PntPtr" ∧ Leads pointerNames.registry 1 "PntPtr" "gp_Pnt *" ∧
      (Shape.ofSpelling "gp_Pnt *").indirection = .pointer ∧ pointerNames.overrides = ∅ ∧
      pointerNames.registry.find? (marked "PntPtr" .pointer) = none ∧
      pointerNames.registry.find? (trimmed (marked "gp_Pnt *" .pointer)) = none ∧
      pointerNames.classify (marked "gp_Pnt *" .pointer) =
        .unsupported "gp_Pnt * *" (some .multipleIndirection) ∧
      pointerNames.classify (marked "PntPtr" .pointer) = .recordRef "gp_Pnt" true := by
  have bare : IsBare "PntPtr" := Shape.isBare_of_isPlain (List.all_eq_true.mp (by decide))
  have stands : pointerNames.registry.target? "PntPtr" = some "gp_Pnt *" := by
    decide +kernel
  refine ⟨by decide, bare, .link stands (.here _), ?_, rfl, ?_, ?_, ?_, ?_⟩
  all_goals decide +kernel

end TypeScope
end HeaderBinding
