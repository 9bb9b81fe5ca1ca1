import HeaderBinding.NameMap
import HeaderBinding.Text.Search

/-!
# Mappings of the user

The user may map a type to a type of the wrappers and say how values are converted. In a conversion
each pair of braces stands for the value; a conversion without braces is applied to it.
-/

namespace HeaderBinding

/-- How a type is to be wrapped. -/
structure Mapping where
  /-- Type on the side of the wrapper. -/
  target? : Option String := none
  /-- Conversion to the native type. -/
  toNative? : Option String := none
  /-- Conversion from the native type. -/
  fromNative? : Option String := none
  deriving DecidableEq, Repr, Inhabited

namespace Mapping

/-- Type of the wrapper for a mapping that names none. -/
def genericTarget : String := "Variant"

/-- A mapping that only names the type of the wrapper. -/
def ofTarget (target : String) : Mapping :=
  { target? := some target }

/-- The type on the side of the wrapper. -/
def target (mapping : Mapping) : String :=
  mapping.target?.getD genericTarget

/-- Apply a conversion to an expression. -/
def convert (conversion? : Option String) (expression : String) : String :=
  match conversion? with
  | none => expression
  | some conversion =>
      if Text.hasPair '{' '}' conversion.toList then
        String.ofList (Text.replacePair '{' '}' expression.toList conversion.toList)
      else s!"{conversion}({expression})"

/-- The native value of an expression of the wrapper. -/
def toNative (mapping : Mapping) (expression : String) : String :=
  convert mapping.toNative? expression

/-- The value for the wrapper of a native expression. -/
def fromNative (mapping : Mapping) (expression : String) : String :=
  convert mapping.fromNative? expression

end Mapping

/-- Mappings by the exact spelling of the type. -/
abbrev OverrideTable :=
  NameMap Mapping

end HeaderBinding
