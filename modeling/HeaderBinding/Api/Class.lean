import HeaderBinding.Decl.Type
import HeaderBinding.NameMap
import HeaderBinding.Registry.Entry
import HeaderBinding.Spelling.Identifier

/-!
# Classes and their public interface

What is wrapped: the classes of the headers with their public functions. Classes are kept by a flat
identifier made of the qualified name, from which the names of generated files are made too.
-/

namespace HeaderBinding
namespace Api

/-- A parameter, which always has a name. -/
structure Param where
  name : String
  type : TypeRef
  deriving DecidableEq, Repr, Inhabited

/-- A public member function. -/
structure Method where
  name : String
  result : TypeRef
  params : List Param
  isStatic : Bool := false
  isConst : Bool := false
  deriving DecidableEq, Repr, Inhabited

/-- A public constructor. Its result is the class itself. -/
structure Creator where
  params : List Param
  result : TypeRef
  deriving DecidableEq, Repr, Inhabited

/-- An enum declared in a class. -/
structure NestedEnum where
  name : String
  enumerators : List Enumerator
  deriving DecidableEq, Repr, Inhabited

/-- The public interface of a class. -/
structure Class where
  qualifiedName : String
  methods : List Method := []
  creators : List Creator := []
  enums : List NestedEnum := []
  /-- This declaration of the class has a body. -/
  isDefinition : Bool := false
  /-- Some header defines the class. -/
  isComplete : Bool := false
  isAbstract : Bool := false
  /-- A class template or a class inside one. -/
  isTemplate : Bool := false
  deriving DecidableEq, Repr, Inhabited

namespace Class

/-- The identifier by which the class is kept. -/
def flatName (model : Class) : String :=
  Identifier.flat model.qualifiedName

/-- Generated code may name the class and call its functions. A template cannot be named without
arguments, an abstract class cannot be created, and a class without a body has nothing to call. -/
def isForwardable (model : Class) : Bool :=
  model.isComplete && !model.isAbstract && !model.isTemplate

/-- Two or more methods have the name. -/
def isOverloaded (model : Class) (name : String) : Bool :=
  2 ≤ (model.methods.filter fun method => method.name = name).length

end Class

end Api

/-- The classes of a set of headers, by flat identifier. -/
abbrev Api :=
  NameMap Api.Class

namespace Api

/-- Keep a class, instead of one with the same flat identifier. A declaration without a body does
not take the place of one of the same class that has a body. -/
def keep (api : Api) (model : Class) : Api :=
  api.alter model.flatName fun
    | none => some model
    | some known =>
        let same := known.qualifiedName = model.qualifiedName
        if same ∧ known.isDefinition ∧ ¬model.isDefinition then some known else some model

/-- The classes in the order of their flat identifiers. -/
def classes (api : Api) : List Class :=
  api.values

end Api
end HeaderBinding
