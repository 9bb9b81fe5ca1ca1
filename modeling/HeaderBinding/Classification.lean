import HeaderBinding.Override.Table
import HeaderBinding.Registry.Builtin
import HeaderBinding.Spelling.Sequence
import HeaderBinding.Spelling.Shape

/-!
# Classification of types

How a value of a type crosses the boundary between the wrappers and the wrapped code. Every spelling
has exactly one classification: other names are followed a bounded number of steps, pointers and
references are peeled off, and what is left over is unsupported.
-/

namespace HeaderBinding

/-- Why a type is unsupported. -/
inductive Obstacle where
  | smartPointer
  | incompleteRecord
  | nestedTemplate
  | multipleTemplateArguments
  | pointerToScalar
  | multipleIndirection
  | aliasCycle
  | depthLimit
  deriving DecidableEq, Repr, Inhabited

/-- The wording of an obstacle. -/
def Obstacle.message : Obstacle → String
  | smartPointer => "smart pointer not mapped"
  | incompleteRecord => "record only forward-declared"
  | nestedTemplate => "nested template argument"
  | multipleTemplateArguments => "template with several arguments"
  | pointerToScalar => "pointer to scalar"
  | multipleIndirection => "multiple indirection"
  | aliasCycle => "typedef cycle"
  | depthLimit => "typedef chain too deep"

/-- How a value of a type crosses the boundary. -/
inductive Classification where
  /-- A number or truth value that the host knows. -/
  | primitive (target : String)
  /-- An enum, which crosses as an integer. -/
  | enumRef (name : String) (enumerators : List Enumerator)
  /-- A record, which crosses as a handle. -/
  | recordRef (name : String) (complete : Bool)
  /-- An instance of a sequence template with one argument. -/
  | vectorOf (inner : String) (element : Classification)
  /-- A type that the user has mapped. -/
  | mapped (mapping : Mapping)
  /-- A type without a known conversion. -/
  | unsupported (spelling : String) (obstacle? : Option Obstacle)
  deriving DecidableEq, Repr, Inhabited

/-- Why a chain of names was not followed further. -/
inductive Stop where
  /-- The name is no other name for a type. -/
  | terminal
  /-- The name occurred before. -/
  | cycle
  /-- As many links were followed as may be. -/
  | depthLimit
  deriving DecidableEq, Repr, Inhabited

/-- Where a chain of names ends. -/
structure Resolution where
  terminal : String
  stop : Stop
  deriving DecidableEq, Repr, Inhabited

/-- What spellings are classified by. -/
structure TypeScope where
  registry : Registry
  overrides : OverrideTable

namespace TypeScope

open Text

/-- Links of a chain of names, and nested classifications, are at most this many. -/
def maxDepth : Nat := 20

/-- What the spelling of a smart pointer begins with, blanks aside. -/
def smartPointers : List (List Char) :=
  ["Handle(", "Handle<", "Handle_", "opencascade::handle<", "std::shared_ptr<", "std::unique_ptr<",
    "std::weak_ptr<"].map String.toList

/-- Templates whose instances hold a sequence of values. -/
def sequenceTemplates : List String :=
  ["std::vector", "std::deque", "std::list"]

/-- The spelling is one of a smart pointer. -/
def isSmartPointer (spelling : String) : Bool :=
  let compact := spelling.toList.filter fun c => !isBlank c
  let compact := (dropFront? [':', ':'] compact).getD compact
  smartPointers.any fun front => (dropFront? front compact).isSome

/-- Follow the chain of names from `current`, at most `links` steps; `seen` are the names before
it. -/
def resolveFrom (registry : Registry) (seen : List String) (links : Nat) (current : String) :
    Resolution :=
  if seen.contains current then ⟨current, .cycle⟩
  else
    match registry.target? current with
    | none => ⟨current, .terminal⟩
    | some next =>
        match links with
        | 0 => ⟨current, .depthLimit⟩
        | links + 1 => resolveFrom registry (current :: seen) links next

/-- Follow the chain of names that begins with a spelling. -/
def resolve (scope : TypeScope) (spelling : String) : Resolution :=
  resolveFrom scope.registry [] maxDepth spelling

/-- The classification of a spelling with pointer or reference marks, from that of its base. Only a
pointer to a record crosses the boundary. -/
def decorate (spelling : String) (shape : Shape) (base : Classification) : Classification :=
  if shape.indirection ≠ .pointer then base
  else
    match base with
    | .recordRef .. => base
    | .primitive _ | .enumRef .. => .unsupported spelling (some .pointerToScalar)
    | .unsupported _ obstacle? => .unsupported spelling obstacle?
    | .vectorOf .. | .mapped _ => .unsupported spelling none

/-- The classification of `spelling`, whose chain of names ends in the plain name or template
instance `resolved`. -/
def classifyPattern (classifyInner : String → Classification) (spelling resolved : String) :
    Classification :=
  if isSmartPointer resolved then .unsupported spelling (some .smartPointer)
  else
    match SequenceArgument.ofSpelling? sequenceTemplates resolved with
    | some (.single inner) => .vectorOf inner (classifyInner inner)
    | some .nested => .unsupported spelling (some .nestedTemplate)
    | some .multiple => .unsupported spelling (some .multipleTemplateArguments)
    | none =>
        if Builtin.isLastResort resolved then .primitive resolved else .unsupported spelling none

/-- The classification of `spelling`, whose chain of names ends in `resolved`, if that name is not
registered. -/
def classifyUnknown (classifyInner : String → Classification) (spelling resolved : String) :
    Classification :=
  let shape := Shape.ofSpelling resolved
  if shape.isDecorated resolved then
    if shape.indirection = .multiple then .unsupported spelling (some .multipleIndirection)
    else decorate spelling shape (classifyInner shape.base)
  else classifyPattern classifyInner spelling resolved

/-- The classification of `spelling`, whose chain of names ends in `resolved`. -/
def classifyResolved (scope : TypeScope) (classifyInner : String → Classification)
    (spelling resolved : String) : Classification :=
  match Builtin.primitive? resolved with
  | some target => .primitive target
  | none =>
      match scope.registry.find? resolved with
      | some (.enum enumerators) => .enumRef resolved enumerators
      | some (.record true) => .recordRef resolved true
      | some (.record false) => .unsupported resolved (some .incompleteRecord)
      | some (.synonym (some target)) | some (.mapped (some target))
      | some (.scopeAlias target) => classifyInner target
      | some (.synonym none) | some (.mapped none) | none =>
          classifyUnknown classifyInner spelling resolved

/-- The classification of a spelling in which fewer than `levels` classifications are nested. -/
def classifyWithin (scope : TypeScope) (levels : Nat) (spelling : String) : Classification :=
  let spelling := trimmed spelling
  match levels with
  | 0 => .unsupported spelling (some .depthLimit)
  | levels + 1 =>
      if spelling = "" then .unsupported spelling none
      else
        match scope.overrides[spelling]? with
        | some mapping => .mapped mapping
        | none =>
            let resolution := scope.resolve spelling
            if resolution.stop = .cycle then .unsupported spelling (some .aliasCycle)
            else
              scope.classifyResolved (scope.classifyWithin levels) spelling resolution.terminal

/-- The classification of a spelling. -/
def classify (scope : TypeScope) (spelling : String) : Classification :=
  scope.classifyWithin (maxDepth + 1) spelling

end TypeScope

end HeaderBinding
