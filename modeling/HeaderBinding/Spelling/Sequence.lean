import HeaderBinding.Text.Affix
import HeaderBinding.Text.Search

/-!
# Instances of sequence templates

The argument of a template with one argument, read off a spelling such as `std::vector<double>`.
-/

namespace HeaderBinding

/-- What stands between the angle brackets of an instance. -/
inductive SequenceArgument where
  /-- One argument, which is no instance of a template. -/
  | single (inner : String)
  /-- An instance of a template. -/
  | nested
  /-- Several arguments. -/
  | multiple
  deriving DecidableEq, Repr

namespace SequenceArgument

open Text

/-- The kind of argument that the text between the brackets is. -/
def ofInner (inner : List Char) : SequenceArgument :=
  if inner.contains '<' || inner.contains '>' then nested
  else if inner.contains ',' then multiple
  else single (String.ofList inner)

/-- The argument of an instance of one of the templates: the name of the template, an opening
bracket, the argument and a closing bracket at the very end. -/
def ofSpelling? (templates : List String) (spelling : String) : Option SequenceArgument :=
  let s := trim spelling.toList
  let s := (dropFront? [':', ':'] s).getD s
  match cut? '<' s with
  | none => none
  | some (head, tail) =>
      if templates.contains (String.ofList (trimEnd head)) then
        (dropBack? ['>'] tail).map fun inner => ofInner (trim inner)
      else none

end SequenceArgument

end HeaderBinding
