import HeaderBinding.Api.Class
import HeaderBinding.Sha1

/-!
# Names in wrapper classes

Functions with the same name are told apart by a short digest of the spellings of their parameter
types. Names that every wrapper or the host's base class uses are kept free.
-/

namespace HeaderBinding
namespace Wrapper

/-- The name of a wrapper class. -/
def className (family flatName : String) : String :=
  s!"{family}_{flatName}"

/-- The name of the functions that stand for constructors. -/
def constructName : String := "construct"

/-- Names that no wrapped function may take: those of the members of every wrapper and of functions
of the host's base class. -/
def reservedNames : List String :=
  ["construct", "destroy", "native", "owned", "_bind_methods", "_notification", "_get", "_set",
    "_to_string", "call", "connect", "disconnect", "emit_signal", "free", "get", "get_class",
    "get_class_static", "get_meta", "has_method", "is_class", "notification", "set", "set_meta",
    "to_string"]

/-- The name of the wrapper function for a wrapped one, before overloads are told apart. -/
def memberName (name : String) : String :=
  let ident := Identifier.safe name
  if reservedNames.contains ident then s!"native_{ident}" else ident

/-- The text of which the digest is taken: the spellings, each on a line of its own. -/
def signatureText (spellings : List String) : String :=
  "\n".intercalate spellings

/-- Number of characters kept of a digest. -/
def digestLength : Nat := 8

/-- The short digest of a list of spellings. -/
def signatureDigest (spellings : List String) : String :=
  String.ofList ((Sha1.hexDigest (signatureText spellings).toUTF8.toList).take digestLength)

/-- The digest by which functions with these parameter types are told apart. Without parameters
there is none. -/
def overloadKey? (spellings : List String) : Option String :=
  if spellings.isEmpty then none else some (signatureDigest spellings)

/-- A name made different for different lists of parameter types. -/
def suffixed (name : String) (spellings : List String) : String :=
  match overloadKey? spellings with
  | none => name
  | some key => s!"{name}_{key}"

/-- The spellings of the types of parameters. -/
def spellingsOf (params : List Api.Param) : List String :=
  params.map fun param => param.type.spelling

end Wrapper
end HeaderBinding
