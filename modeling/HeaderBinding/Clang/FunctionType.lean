import HeaderBinding.Text.Affix
import HeaderBinding.Text.Search

/-!
# Spellings of function types

A function type is spelled by its result, its parameters in parentheses and its qualifiers, as in
`double (int, const gp_Pnt &) const`. Only the result and the qualifier `const` are read.
-/

namespace HeaderBinding
namespace Clang

/-- What is read from the spelling of a function type. -/
structure FunctionType where
  result : String
  isConst : Bool
  deriving DecidableEq, Repr, Inhabited

namespace FunctionType

open Text

/-- Cut at the first opening parenthesis outside of angle brackets, of which `depth` are open. A
closing bracket without an opening one is passed over. -/
def cutOpen? (depth : Nat) : List Char → Option (List Char × List Char)
  | [] => none
  | c :: rest =>
      if c = '(' ∧ depth = 0 then some ([], rest)
      else
        let depth := if c = '<' then depth + 1 else if c = '>' then depth - 1 else depth
        (cutOpen? depth rest).map fun (before, after) => (c :: before, after)

/-- What follows the parenthesis that closes the first of `depth + 1` open ones. -/
def afterClose? (depth : Nat) : List Char → Option (List Char)
  | [] => none
  | c :: rest =>
      if c = '(' then afterClose? (depth + 1) rest
      else if c = ')' then
        match depth with
        | 0 => some rest
        | depth + 1 => afterClose? depth rest
      else afterClose? depth rest

/-- Read the spelling of a function type. -/
def ofChars? (s : List Char) : Option FunctionType :=
  match cutOpen? 0 s with
  | none => none
  | some (before, inside) =>
      match afterClose? 0 inside with
      | none => none
      | some tail =>
          let head := trim before
          let (qualifiers, trailing) := match cutPair? '-' '>' tail with
            | none => (tail, [])
            | some (qualifiers, result) => (qualifiers, trim result)
          let result := if head = "auto".toList ∧ trailing ≠ [] then trailing else head
          some ⟨String.ofList result, (words qualifiers).contains "const".toList⟩

/-- Read the spelling of a function type; there must be a list of parameters outside of angle
brackets. -/
def ofSpelling? (spelling : String) : Option FunctionType :=
  ofChars? spelling.toList

end FunctionType

end Clang
end HeaderBinding
