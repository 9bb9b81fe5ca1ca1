/-!
# Types of declarations

A declaration names its types by their spelling. Most spellings were reported by a front end; a few
are made up by a later pass, for instance the result of a constructor.
-/

namespace HeaderBinding

/-- A type as a declaration names it. -/
inductive TypeRef where
  /-- As written in the header, with the spelling behind all aliases if it is known and another
  one. -/
  | reported (written : String) (canonical : Option String)
  /-- Made up where the header has no type. -/
  | synthesized (spelling : String)
  deriving DecidableEq, Repr, Inhabited

namespace TypeRef

/-- A reported type about which only the spelling is known. -/
def plain (written : String) : TypeRef :=
  reported written none

/-- A reported type with its canonical spelling, which is dropped if it says nothing new. -/
def withCanonical (written canonical : String) : TypeRef :=
  if canonical = written ∨ canonical = "" then plain written
  else reported written (some canonical)

/-- The spelling by which the type is classified and told apart from others. -/
def spelling : TypeRef → String
  | reported written _ => written
  | synthesized spelling => spelling

/-- The spelling that names the type also outside the scope of its declaration. -/
def canonicalSpelling : TypeRef → String
  | reported _ (some canonical) => canonical
  | type => type.spelling

end TypeRef

end HeaderBinding
