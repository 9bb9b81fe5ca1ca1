import HeaderBinding.Classification
import HeaderBinding.Wrapper.Class
import HeaderBinding.Wrapper.Naming

/-!
# Values that cross the boundary

How a parameter is passed on to the wrapped function and how its result comes back. A parameter
without a known conversion is given a native local with the default value of its type; if there can
be no such local, the function cannot be called at all.
-/

namespace HeaderBinding
namespace Wrapper

open Text (trim trimmed dropFront? dropBack?)

/-- Type of the wrapper for values without a known conversion. -/
def genericType : String := "Variant"

/-- Type of the wrapper for handles of objects. -/
def handleType : String := "void *"

/-- Integer types whose default value is zero. -/
def integerTypes : List String :=
  ["int", "long", "short", "char", "size_t", "ptrdiff_t", "long long"]

/-- A value of a type of the wrapper to return when a call is not made; none for `void`. -/
def defaultValue? (type : String) : Option String :=
  let s := trim type.toList
  let s := trim ((dropFront? "const ".toList s).getD s)
  let plain := String.ofList s
  if plain = "void" then none
  else if plain = "bool" then some "false"
  else if plain = "float" ∨ plain = "double" then some "0.0"
  else if (dropBack? ['*'] s).isSome then some "nullptr"
  else if plain = genericType then some "Variant()"
  else if integerTypes.contains plain then some "0"
  else if (dropFront? "unsigned ".toList s).isSome then some "0"
  else some "\x7b\x7d"

/-- Leave a function with the default value of its result type. -/
def failWith (type : String) : Stmt :=
  .ret ((defaultValue? type).map Expr.text)

/-! ## Parameters -/

/-- A parameter on both sides of the boundary. -/
structure PassedParam where
  param : Param
  /-- Statements to run before the call. -/
  prelude : List Stmt
  /-- What is passed on. -/
  argument : String
  /-- Says that nothing can be passed on, so that the function cannot be called. -/
  blocked? : Option Stmt
  deriving Inhabited

/-- Where a parameter belongs. -/
structure ParamSite where
  /-- Qualified name of the wrapped class. -/
  native : String
  /-- Name of the wrapped function. -/
  member : String
  /-- How the function is left if the parameter cannot be passed on. -/
  fail : Stmt

/-- A local with the default value of the type of a parameter can be declared. A record without a
body has no values, and a reference to an unknown name most likely names such a record. -/
def hasDefault (obstacle? : Option Obstacle) (shape : Shape) : Bool :=
  shape.isPointer ||
    match obstacle? with
    | some .incompleteRecord => false
    | some _ => true
    | none =>
        let isReference := shape.indirection = .lvalueRef || shape.indirection = .rvalueRef
        !isReference || shape.base.toList.contains '<'

/-- The local that stands in for a parameter without a known conversion. -/
def placeholderName (name : String) : String :=
  s!"converted_{name}"

/-- Declare the local that stands in for a parameter without a known conversion. -/
def placeholder (type : TypeRef) (name : String) : Stmt :=
  let canonical := type.canonicalSpelling
  .declare s!"std::remove_cv_t<std::remove_reference_t<{canonical}>>" (placeholderName name)

/-- The remark on a parameter of an unsupported type. -/
def unsupportedNote (spelling : String) (obstacle? : Option Obstacle) : String :=
  match obstacle? with
  | none => s!"unsupported type: {spelling}"
  | some obstacle => s!"unsupported type: {spelling} (" ++ obstacle.message ++ ")"

/-- An expression as passed to a parameter of the given shape: a value is moved into an rvalue
reference. -/
def moved (shape : Shape) (code : String) : String :=
  if shape.indirection = .rvalueRef then s!"std::move({code})" else code

/-- The parameter is a reference through which the function may write. -/
def isMutableRef (shape : Shape) : Bool :=
  shape.indirection = .lvalueRef && !shape.isConst

/-- The name of the local that holds the native value of a parameter. -/
def nativeName (name : String) : String :=
  s!"{name}_native"

/-- How a parameter is passed on. -/
def passParam (scope : TypeScope) (site : ParamSite) (param : Api.Param) : PassedParam :=
  let name := Identifier.safe param.name
  let spelling := param.type.spelling
  let shape := Shape.ofSpelling spelling
  match scope.classify spelling with
  | .primitive target => ⟨⟨target, name, none⟩, [], moved shape name, none⟩
  | .enumRef native _ =>
      let cast := s!"static_cast<{native}>({name})"
      if isMutableRef shape then
        ⟨⟨"int", name, none⟩, [.bind (nativeName name) (.text cast)], nativeName name, none⟩
      else ⟨⟨"int", name, none⟩, [], cast, none⟩
  | .recordRef native _ =>
      let cast := s!"reinterpret_cast<{native} *>({name})"
      if shape.isPointer then ⟨⟨handleType, name, none⟩, [], cast, none⟩
      else
        let message := s!"Null {name} passed to {site.native}::{site.member}"
        ⟨⟨handleType, name, none⟩,
          [.guard (.argumentMissing name) [.report message, site.fail]],
          moved shape ("*" ++ cast), none⟩
  | .mapped mapping =>
      let converted := mapping.toNative name
      if isMutableRef shape then
        ⟨⟨mapping.target, name, none⟩, [.bind (nativeName name) (.text converted)],
          nativeName name, none⟩
      else ⟨⟨mapping.target, name, none⟩, [], moved shape converted, none⟩
  | .vectorOf inner _ =>
      ⟨⟨genericType, name, some "PackedArray expected"⟩,
        [.todo s!"convert PackedArray/Variant to std::vector<{inner}> for {name}",
          placeholder param.type name],
        moved shape (placeholderName name), none⟩
  | .unsupported unknown obstacle? =>
      let todo := Stmt.todo s!"convert Variant to {spelling} for {name}"
      let wrapped : Param := ⟨genericType, name, some (unsupportedNote unknown obstacle?)⟩
      if hasDefault obstacle? shape then
        ⟨wrapped, [todo, placeholder param.type name], moved shape (placeholderName name), none⟩
      else ⟨wrapped, [], "", some todo⟩

/-! ## Results -/

/-- How a native value becomes a value of the wrapper. -/
inductive ResultConversion where
  | asIs
  | toInt
  | mapped (mapping : Mapping)
  deriving DecidableEq, Repr, Inhabited

/-- The local that holds the native result. -/
def resultName : String := "_ret"

/-- The converted result. -/
def ResultConversion.code : ResultConversion → String
  | asIs => resultName
  | toInt => s!"static_cast<int>({resultName})"
  | mapped mapping => mapping.fromNative resultName

/-- How the result of a call comes back. -/
inductive ResultPlan where
  /-- There is no result. -/
  | nothing
  /-- A converted value. -/
  | value (type : String) (conversion : ResultConversion)
  /-- A handle for the object that the result points or refers to. -/
  | handle (takeAddress : Bool)
  /-- The result is dropped, with a remark, and a default is returned. -/
  | dropped (type : String) (remark : Stmt)
  deriving Inhabited

namespace ResultPlan

/-- The result type of the wrapper function. -/
def type : ResultPlan → String
  | nothing => "void"
  | value type _ | dropped type _ => type
  | handle _ => handleType

/-- The statements that make a call and hand its result back. -/
def forward (plan : ResultPlan) (call : Expr) : List Stmt :=
  match plan with
  | nothing => [.expr call]
  | value _ conversion => [.bind resultName call, .ret (some (.text conversion.code))]
  | handle takeAddress =>
      [.ret (some (.handleOf (if takeAddress then .addressOf call else call)))]
  | dropped type remark => [.expr (.ignore call), remark, failWith type]

end ResultPlan

/-- How a result comes back. -/
def planResult (scope : TypeScope) (result : TypeRef) : ResultPlan :=
  let spelling := result.spelling
  let shape := Shape.ofSpelling spelling
  if shape.base = "void" ∧ shape.indirection = .none then .nothing
  else
    match scope.classify spelling with
    | .primitive target => .value target .asIs
    | .enumRef .. => .value "int" .toInt
    | .mapped mapping => .value mapping.target (.mapped mapping)
    | .recordRef .. =>
        match shape.indirection with
        | .pointer => .handle false
        | .lvalueRef => .handle true
        | _ =>
            .dropped handleType
              (.comment "Returning a record by value is not supported; returning nullptr.")
    | .vectorOf inner _ =>
        .dropped genericType (.todo s!"convert std::vector<{inner}> to a Godot type")
    | .unsupported unknown _ =>
        .dropped genericType (.comment s!"Unsupported return type: {unknown}")

end Wrapper
end HeaderBinding
