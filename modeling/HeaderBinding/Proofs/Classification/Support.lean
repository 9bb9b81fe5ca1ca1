import HeaderBinding.Classification

/-!
# What classifications rest on

`Supports` says which facts about a scope a classification rests on: a primitive type is built in,
an enum or a record is registered as such, a mapping was made by the user. Every classification
rests on what its scope knows, and so does every classification inside it: part by part, `Knows`
says what a scope has to know.
-/

namespace HeaderBinding

namespace Builtin

/-- The primitive types for which spellings may stand. -/
def targets : List String :=
  primitives.map Prod.snd

theorem mem_targets_of_primitive? {spelling target : String}
    (found : primitive? spelling = some target) : target ∈ targets := by
  obtain ⟨before, after, listed, -⟩ := List.lookup_eq_some_iff.mp found
  exact List.mem_map.mpr ⟨(spelling, target), by simp [listed], rfl⟩

theorem mem_targets_of_isLastResort {name : String} (known : isLastResort name) :
    name ∈ targets := by
  have all_known : ∀ name ∈ lastResort, name ∈ targets := by
    decide
  exact all_known name (by simpa [isLastResort] using known)

end Builtin

namespace SequenceArgument

/-- The text is no instance of a template and no list of arguments. -/
def IsSimple (inner : String) : Prop :=
  '<' ∉ inner.toList ∧ '>' ∉ inner.toList ∧ ',' ∉ inner.toList

theorem isSimple_of_ofInner {text : List Char} {inner : String}
    (single : ofInner text = .single inner) : IsSimple inner := by
  simp only [ofInner] at single
  split at single
  · simp at single
  · split at single
    · simp at single
    · rename_i unnested alone
      obtain rfl : String.ofList text = inner := by simpa using single
      simpa [IsSimple, and_assoc] using And.intro unnested alone

theorem isSimple_of_ofSpelling? {templates : List String} {spelling inner : String}
    (found : ofSpelling? templates spelling = some (.single inner)) : IsSimple inner := by
  simp only [ofSpelling?] at found
  split at found
  · simp at found
  · split at found
    · obtain ⟨text, -, single⟩ := Option.map_eq_some_iff.mp found
      exact isSimple_of_ofInner single
    · simp at found

end SequenceArgument

namespace TypeScope

open Text

/-- What the scope knows supports the classification and all classifications inside it. -/
inductive Supports (scope : TypeScope) : Classification → Prop
  | primitive {target : String} (known : target ∈ Builtin.targets) :
      Supports scope (.primitive target)
  | enumRef {name : String} {enumerators : List Enumerator}
      (stored : scope.registry.find? name = some (.enum enumerators)) :
      Supports scope (.enumRef name enumerators)
  | recordRef {name : String} (stored : scope.registry.find? name = some (.record true)) :
      Supports scope (.recordRef name true)
  | vectorOf {inner : String} {element : Classification}
      (simple : SequenceArgument.IsSimple inner) (supported : Supports scope element) :
      Supports scope (.vectorOf inner element)
  | mapped {spelling : String} {mapping : Mapping}
      (stored : scope.overrides[spelling]? = some mapping) : Supports scope (.mapped mapping)
  | unsupported (spelling : String) {obstacle? : Option Obstacle}
      (incomplete : obstacle? = some .incompleteRecord →
        ∃ name, scope.registry.find? name = some (.record false)) :
      Supports scope (.unsupported spelling obstacle?)

section

variable {scope : TypeScope} {classifyInner : String → Classification}

theorem supports_decorate {base : Classification} (supported : Supports scope base)
    (spelling : String) (shape : Shape) : Supports scope (decorate spelling shape base) := by
  simp only [decorate]
  split
  · exact supported
  · cases supported with
    | primitive | enumRef | vectorOf | mapped => exact .unsupported _ (by simp)
    | recordRef stored => exact .recordRef stored
    | unsupported _ incomplete => exact .unsupported _ incomplete

theorem supports_classifyPattern (inner : ∀ spelling, Supports scope (classifyInner spelling))
    (spelling resolved : String) :
    Supports scope (classifyPattern classifyInner spelling resolved) := by
  simp only [classifyPattern]
  split
  · exact .unsupported _ (by simp)
  · split
    · exact .vectorOf (SequenceArgument.isSimple_of_ofSpelling? ‹_›) (inner _)
    · exact .unsupported _ (by simp)
    · exact .unsupported _ (by simp)
    · split
      · exact .primitive (Builtin.mem_targets_of_isLastResort ‹_›)
      · exact .unsupported _ (by simp)

theorem supports_classifyUnknown (inner : ∀ spelling, Supports scope (classifyInner spelling))
    (spelling resolved : String) :
    Supports scope (classifyUnknown classifyInner spelling resolved) := by
  simp only [classifyUnknown]
  split
  · split
    · exact .unsupported _ (by simp)
    · exact supports_decorate (inner _) _ _
  · exact supports_classifyPattern inner spelling resolved

theorem supports_classifyResolved (inner : ∀ spelling, Supports scope (classifyInner spelling))
    (spelling resolved : String) :
    Supports scope (scope.classifyResolved classifyInner spelling resolved) := by
  simp only [classifyResolved]
  split
  · exact .primitive (Builtin.mem_targets_of_primitive? ‹_›)
  · split
    · exact .enumRef ‹_›
    · exact .recordRef ‹_›
    · exact .unsupported _ fun _ => ⟨resolved, ‹_›⟩
    · exact inner _
    · exact inner _
    · exact inner _
    · exact supports_classifyUnknown inner spelling resolved
    · exact supports_classifyUnknown inner spelling resolved
    · exact supports_classifyUnknown inner spelling resolved

theorem supports_classifyWithin (scope : TypeScope) (levels : Nat) (spelling : String) :
    Supports scope (scope.classifyWithin levels spelling) := by
  induction levels generalizing spelling with
  | zero => exact .unsupported _ (by simp)
  | succ levels induction =>
      -- Spellings inside this one are classified one level below, whichever case applies.
      simp only [classifyWithin]
      split
      · exact .unsupported _ (by simp)
      · split
        · exact .mapped ‹_›
        · split
          · exact .unsupported _ (by simp)
          · exact supports_classifyResolved induction _ _

/-- A classification rests on what its scope knows. -/
theorem supports_classify (scope : TypeScope) (spelling : String) :
    Supports scope (scope.classify spelling) :=
  supports_classifyWithin scope _ spelling

end

end TypeScope

/-! ## Part by part -/

/-- A classification and all classifications inside it. -/
def Classification.parts : Classification → List Classification
  | .vectorOf inner element => .vectorOf inner element :: element.parts
  | classification => [classification]

namespace TypeScope

/-- The scope knows what a classification says, the classifications inside it left aside. -/
def Knows (scope : TypeScope) : Classification → Prop
  | .primitive target => target ∈ Builtin.targets
  | .enumRef name enumerators => scope.registry.find? name = some (.enum enumerators)
  | .recordRef name complete =>
      complete = true ∧ scope.registry.find? name = some (.record true)
  | .vectorOf inner _ => SequenceArgument.IsSimple inner
  | .mapped mapping => ∃ spelling : String, scope.overrides[spelling]? = some mapping
  | .unsupported _ obstacle? =>
      obstacle? = some .incompleteRecord → ∃ name, scope.registry.find? name = some (.record false)

theorem Supports.knows_of_mem_parts {scope : TypeScope} {classification part : Classification}
    (supported : Supports scope classification) (inside : part ∈ classification.parts) :
    scope.Knows part := by
  induction supported with
  | primitive known =>
      obtain rfl := List.mem_singleton.mp inside
      exact known
  | enumRef stored =>
      obtain rfl := List.mem_singleton.mp inside
      exact stored
  | recordRef stored =>
      obtain rfl := List.mem_singleton.mp inside
      exact ⟨rfl, stored⟩
  | vectorOf simple _ induction =>
      rcases List.mem_cons.mp inside with rfl | deeper
      · exact simple
      · exact induction deeper
  | mapped stored =>
      obtain rfl := List.mem_singleton.mp inside
      exact ⟨_, stored⟩
  | unsupported _ incomplete =>
      obtain rfl := List.mem_singleton.mp inside
      exact incomplete

/-- Whatever a classification says, and whatever those inside it say, its scope knows: a record that
is only declared is never taken for one with a body. -/
theorem knows_of_mem_parts_classify (scope : TypeScope) (spelling : String)
    {part : Classification} (inside : part ∈ (scope.classify spelling).parts) :
    scope.Knows part :=
  (supports_classify scope spelling).knows_of_mem_parts inside

/-- A record with a body, another name for sequences of it, and a record that is only declared. -/
def shapeScope : TypeScope where
  registry := Registry.empty.addAll
    [("Shape", .record true), ("Shapes", .synonym (some "std::vector<Shape>")),
      ("Part", .record false)]
  overrides := ∅

/-- The record that the elements of a sequence are taken for is known to have a body. -/
theorem knows_shape_of_shapes :
    .recordRef "Shape" true ∈ (shapeScope.classify "const Shapes &").parts ∧
      shapeScope.Knows (.recordRef "Shape" true) := by
  have inside : .recordRef "Shape" true ∈ (shapeScope.classify "const Shapes &").parts := by
    decide +kernel
  exact ⟨inside, knows_of_mem_parts_classify shapeScope "const Shapes &" inside⟩

/-- A sequence of records that are only declared holds something unsupported. -/
example : (shapeScope.classify "std::list<Part>").parts =
    [.vectorOf "Part" (.unsupported "Part" (some .incompleteRecord)),
      .unsupported "Part" (some .incompleteRecord)] := by
  decide +kernel

end TypeScope
end HeaderBinding
