import HeaderBinding.Text.Affix
import HeaderBinding.Text.Search

/-!
# Identifiers

Names of declarations turned into identifiers of generated code.
-/

namespace HeaderBinding
namespace Identifier

/-- An ASCII letter or digit, or the underscore. -/
def isWordChar (c : Char) : Bool :=
  c.isAlphanum || c == '_'

/-- Put an underscore in the place of every character that an identifier cannot hold. -/
def safeChars (s : List Char) : List Char :=
  s.map fun c => if isWordChar c then c else '_'

/-- An identifier as much like the name as possible. -/
def safe (name : String) : String :=
  String.ofList (safeChars name.toList)

/-- One identifier for a qualified name: each `::` becomes one underscore. -/
def flat (qualified : String) : String :=
  String.ofList (safeChars (Text.replacePair ':' ':' ['_'] qualified.toList))

/-- The name of an operator or of a conversion function, such as `operator=`. -/
def isOperator (name : String) : Bool :=
  match Text.dropFront? "operator".toList name.toList with
  | some (c :: _) => !isWordChar c
  | _ => false

end Identifier
end HeaderBinding
