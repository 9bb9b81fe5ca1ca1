import HeaderBinding.Api.Class
import HeaderBinding.Wrapper.Code

/-!
# Wrapper classes

A generated class before it is written: all types and expressions are final, only their layout is
open.
-/

namespace HeaderBinding
namespace Wrapper

/-- A parameter of a wrapper function. -/
structure Param where
  type : String
  name : String
  /-- A remark written after the parameter. -/
  note? : Option String := none
  deriving DecidableEq, Repr, Inhabited

/-- The kind of a wrapper function. -/
inductive MethodKind where
  /-- Stands for a constructor of the wrapped class. -/
  | construct
  | static
  | onObject (isConst : Bool)
  deriving DecidableEq, Repr, Inhabited

/-- A wrapper function and its body. -/
structure Method where
  /-- Name of the function in the generated class. -/
  ident : String
  /-- Name by which scripts know the function. -/
  scriptName : String
  kind : MethodKind
  result : String
  params : List Param
  body : List Stmt
  deriving Repr, Inhabited, BEq

namespace Method

/-- The function needs no object. -/
def isStatic (method : Method) : Bool :=
  method.kind = .static

/-- The function may be called on a constant object. -/
def isConst (method : Method) : Bool :=
  method.kind = .onObject true

end Method

/-- A wrapper class. -/
structure Class where
  name : String
  /-- Qualified name of the wrapped class. -/
  native : String
  /-- Class of the host that the wrapper derives from. -/
  base : String
  /-- The bodies call into the wrapped class. -/
  forwardable : Bool
  enums : List Api.NestedEnum
  /-- Constructors first, then methods, in the order of their declarations. -/
  methods : List Method
  /-- Body of the function that gives the wrapped object up. -/
  destroy : List Stmt
  deriving Inhabited

/-- The function with a name. -/
def Class.method? (wrapper : Class) (ident : String) : Option Method :=
  wrapper.methods.find? fun method => method.ident = ident

end Wrapper
end HeaderBinding
