import HeaderBinding.Registry.Basic

/-!
# Built-in primitive types

The spellings of primitive types that are known without any header.
-/

namespace HeaderBinding
namespace Builtin

/-- Spellings of primitive types and the type that each stands for. The first six are names that
modelling headers use for primitive types. -/
def primitives : List (String × String) :=
  [("Standard_Integer", "int"), ("Standard_Real", "double"), ("Standard_Boolean", "bool"),
    ("Standard_ShortReal", "float"), ("Standard_Character", "char"), ("Standard_Size", "size_t"),
    ("int", "int"), ("unsigned int", "unsigned int"), ("long", "long"),
    ("unsigned long", "unsigned long"), ("long long", "long long"),
    ("unsigned long long", "unsigned long long"), ("short", "short"),
    ("unsigned short", "unsigned short"), ("float", "float"), ("double", "double"),
    ("bool", "bool"), ("char", "char"), ("unsigned char", "unsigned char"), ("size_t", "size_t")]

/-- The primitive type that a spelling stands for. -/
def primitive? (spelling : String) : Option String :=
  primitives.lookup spelling

/-- Names that are taken for primitive types as a last resort. -/
def lastResort : List String :=
  ["int", "float", "double", "bool", "char", "long"]

/-- The name is taken for a primitive type as a last resort. -/
def isLastResort (name : String) : Bool :=
  lastResort.contains name

/-- Entries for the spellings that stand for another one. -/
def entries : List (String × Registry.Entry) :=
  (primitives.filter fun item => item.1 ≠ item.2).map fun item =>
    (item.1, .synonym (some item.2))

end Builtin
end HeaderBinding
