import HeaderBinding.Decl.Type

/-!
# Declarations

One declaration of a header, apart from its place among the others.
-/

namespace HeaderBinding
namespace Decl

/-- What is declared. -/
inductive Kind where
  /-- The whole header. -/
  | unit
  | namespaceScope
  /-- An alias written with `typedef`. -/
  | typedef
  /-- An alias written with `using`. -/
  | typeAlias
  | struct
  | classType
  | classTemplate
  | enum
  | enumConstant
  | method
  | creator
  /-- Anything else, looked into but not collected. -/
  | other
  deriving DecidableEq, Repr, Inhabited

/-- A struct, class or class template. -/
def Kind.isRecord : Kind → Bool
  | struct | classType | classTemplate => true
  | _ => false

/-- An alias of a type. -/
def Kind.isAlias : Kind → Bool
  | typedef | typeAlias => true
  | _ => false

/-- Who may use a member. -/
inductive Access where
  | isPublic
  | isProtected
  | isPrivate
  /-- Not a member of a class. -/
  | unspecified
  deriving DecidableEq, Repr, Inhabited

/-- Marks of a declaration. -/
structure Flags where
  /-- A record with a body. -/
  definition : Bool := false
  /-- A static member function. -/
  isStatic : Bool := false
  /-- A member function that may be called on a constant object. -/
  isConst : Bool := false
  /-- A function that must not be called. -/
  deleted : Bool := false
  /-- A record with a member function that it does not define. -/
  isAbstract : Bool := false
  /-- Declared in another file than the parsed header. -/
  included : Bool := false
  deriving DecidableEq, Repr, Inhabited

/-- A parameter of a function; its name is empty if it has none. -/
structure Param where
  name : String
  type : TypeRef
  deriving DecidableEq, Repr, Inhabited

/-- Number of a declaration in its tree. Numbers are unbounded here. A tree that keeps them in 32
bits is the same as long as no header has more than 2 ^ 32 declarations. -/
abbrev NodeId := Nat

/-- One declaration. -/
structure Node where
  kind : Kind
  /-- Name without its scope, empty for an anonymous declaration. -/
  name : String := ""
  /-- Aliased type or result type. -/
  type? : Option TypeRef := none
  params : List Param := []
  access : Access := .unspecified
  flags : Flags := {}
  /-- Value of an enum constant, if it could be evaluated. -/
  value? : Option Int := none
  /-- The declaration whose scope this one belongs to. -/
  scope? : Option NodeId := none
  /-- Declarations written inside this one, in their order. -/
  children : Array NodeId := #[]
  deriving DecidableEq, Repr, Inhabited

/-- The declaration has no name. -/
def Node.isAnonymous (node : Node) : Bool :=
  node.name = ""

end Decl
end HeaderBinding
