/-!
# Code of generated functions

The statements of a generated function. The expressions that touch the wrapped object (calls,
creation, deletion, the handle and its owner flag) are told apart from all others, which are kept
as text.
-/

namespace HeaderBinding
namespace Wrapper

/-- What a wrapped function is called on. -/
inductive Receiver where
  /-- The class itself, for a static function. -/
  | ofClass (native : String)
  /-- The wrapped object. -/
  | ofHandle (native : String) (isConst : Bool)
  deriving DecidableEq, Repr, Inhabited

/-- The receiver as written before the name of the function. -/
def Receiver.code : Receiver → String
  | ofClass native => s!"{native}::"
  | ofHandle native isConst =>
      let const := if isConst then "const " else ""
      s!"reinterpret_cast<{const}{native} *>(this->native)->"

/-- An expression of a generated function. -/
inductive Expr where
  /-- An expression that does not touch the wrapped object. -/
  | text (code : String)
  /-- A call of a wrapped function. -/
  | call (on : Receiver) (member : String) (arguments : List String)
  /-- Create an object of the wrapped class and take its handle. -/
  | create (native : String) (arguments : List String)
  /-- Delete the object that the handle stands for. -/
  | delete (native : String)
  /-- Call the function that gives the object up. -/
  | destroy
  /-- Forget the handle. -/
  | clearHandle
  /-- Set whether the wrapper owns the object. -/
  | setOwned (owned : Bool)
  /-- Evaluate and ignore the value. -/
  | ignore (inner : Expr)
  /-- The address of the value. -/
  | addressOf (inner : Expr)
  /-- A handle for an address. -/
  | handleOf (inner : Expr)
  deriving DecidableEq, Repr, Inhabited

/-- Arguments between parentheses. -/
def argumentList (arguments : List String) : String :=
  let inner := ", ".intercalate arguments
  s!"({inner})"

/-- The expression as written. -/
def Expr.code : Expr → String
  | text code => code
  | call on member arguments => on.code ++ member ++ argumentList arguments
  | create native arguments => s!"this->native = new {native}{argumentList arguments}"
  | delete native => s!"delete reinterpret_cast<{native} *>(this->native)"
  | destroy => "this->destroy()"
  | clearHandle => "this->native = nullptr"
  | setOwned owned => "this->owned = " ++ if owned then "true" else "false"
  | ignore inner => "(void)" ++ inner.code
  | addressOf inner => "&" ++ inner.code
  | handleOf inner =>
      "const_cast<void *>(static_cast<const void *>(" ++ inner.code ++ "))"

/-- What a statement may depend on. -/
inductive Condition where
  | text (code : String)
  /-- There is no wrapped object. -/
  | handleMissing
  /-- There is a wrapped object and the wrapper owns it. -/
  | handleOwned
  /-- The handle passed for a parameter is null. -/
  | argumentMissing (param : String)
  deriving DecidableEq, Repr, Inhabited

/-- The condition as written. -/
def Condition.code : Condition → String
  | text code => code
  | handleMissing => "!this->native"
  | handleOwned => "this->native && this->owned"
  | argumentMissing param => "!" ++ param

/-- A statement of a generated function. -/
inductive Stmt where
  | comment (text : String)
  /-- A comment about something left to do. -/
  | todo (text : String)
  /-- Declare a local with the default value of its type. -/
  | declare (type name : String)
  | expr (value : Expr)
  /-- Declare a local with a value. -/
  | bind (name : String) (value : Expr)
  | ret (value? : Option Expr)
  /-- Print an error message. -/
  | report (message : String)
  /-- Run statements only if a condition holds. -/
  | guard (condition : Condition) (body : List Stmt)
  deriving Repr, Inhabited, BEq

end Wrapper
end HeaderBinding
