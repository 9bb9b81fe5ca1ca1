import HeaderBinding.Text.Affix

/-!
# Shape of a type spelling

A spelling is split into the type it is about and what is written around it: qualifiers, tags such
as `struct`, and pointer or reference marks. Marks are peeled off the end first, the outermost
first; then words are peeled off the front.
-/

namespace HeaderBinding

/-- The outermost indirection of a type. -/
inductive Indirection where
  | none
  | pointer
  | lvalueRef
  | rvalueRef
  /-- Two or more marks. -/
  | multiple
  deriving DecidableEq, Repr, Inhabited

/-- A spelling taken apart. -/
structure Shape where
  /-- What is left when everything is peeled off. -/
  base : String
  indirection : Indirection
  /-- The base type itself is qualified with `const`. -/
  isConst : Bool
  deriving DecidableEq, Repr, Inhabited

namespace Shape

open Text

/-- A qualifier of a type or of a pointer. -/
inductive Qualifier where
  | const
  | volatile
  deriving DecidableEq, Repr

/-- The qualifier as written. -/
def Qualifier.letters : Qualifier → List Char
  | const => ['c', 'o', 'n', 's', 't']
  | volatile => ['v', 'o', 'l', 'a', 't', 'i', 'l', 'e']

/-- What the end of a spelling may say. -/
inductive Mark where
  | declarator (kind : Indirection)
  | qualifier (word : Qualifier)
  deriving DecidableEq, Repr

/-- A character of a pointer or reference mark. -/
def isDeclaratorChar (c : Char) : Bool :=
  c == '*' || c == '&'

/-- A qualifier may end here: a blank or a mark is next, and more than blanks. Like all that looks
at the end of a spelling, this reads it backwards. -/
def endsQualified (back : List Char) : Bool :=
  back.head?.any (fun c => isBlank c || isDeclaratorChar c) && !(trimStart back).isEmpty

/-- A qualifier at the end, and what is before it, in a spelling read backwards. -/
def lastQualifier? (word : Qualifier) (back : List Char) : Option (Mark × List Char) :=
  ((dropFront? word.letters.reverse back).filter endsQualified).map
    (Mark.qualifier word, trimStart ·)

/-- A pointer or reference mark at the end, and what is before it, in a spelling read backwards. -/
def lastDeclarator? (back : List Char) : Option (Mark × List Char) :=
  let mark (letters : List Char) (kind : Indirection) : Option (Mark × List Char) :=
    (dropFront? letters back).map (Mark.declarator kind, trimStart ·)
  ((mark ['&', '&'] .rvalueRef).or (mark ['&'] .lvalueRef)).or (mark ['*'] .pointer)

/-- The last mark of a spelling read backwards, and what is before it. -/
def lastMark? (back : List Char) : Option (Mark × List Char) :=
  (lastDeclarator? back).or ((lastQualifier? .const back).or (lastQualifier? .volatile back))

theorem length_lt_of_lastMark? {back rest : List Char} {mark : Mark}
    (found : lastMark? back = some (mark, rest)) : rest.length < back.length := by
  have shorter {letters later : List Char} (letters_ne : letters ≠ [])
      (split : back = letters ++ later) : (trimStart later).length < back.length := by
    have := List.length_pos_iff.mpr letters_ne
    have := length_trimStart_le later
    simp only [split, List.length_append]
    omega
  have qualifier (word : Qualifier) : word.letters.reverse ≠ [] := by
    cases word <;> simp [Qualifier.letters]
  simp only [lastMark?, lastDeclarator?, lastQualifier?, Option.or_eq_some_iff,
    Option.map_eq_some_iff, Option.filter_eq_some_iff, Prod.mk.injEq, dropFront?_eq_some] at found
  rcases found with ((found | ⟨-, found⟩) | ⟨-, found⟩) | ⟨-, found | ⟨-, found⟩⟩
  · obtain ⟨_, split, -, rfl⟩ := found
    exact shorter (by simp) split
  · obtain ⟨_, split, -, rfl⟩ := found
    exact shorter (by simp) split
  · obtain ⟨_, split, -, rfl⟩ := found
    exact shorter (by simp) split
  · obtain ⟨_, ⟨split, -⟩, -, rfl⟩ := found
    exact shorter (qualifier .const) split
  · obtain ⟨_, ⟨split, -⟩, -, rfl⟩ := found
    exact shorter (qualifier .volatile) split

/-- What is peeled off a spelling. -/
structure Peeled where
  /-- Pointer and reference marks, the outermost first. -/
  declarators : List Indirection
  isConst : Bool
  base : List Char
  deriving DecidableEq, Repr

/-- Peel marks off the end of a spelling read backwards. A `const` counts for the base unless a
pointer or reference mark stands right before it. -/
def peelBack (back : List Char) : Peeled :=
  match _found : lastMark? back with
  | none => ⟨[], false, back.reverse⟩
  | some (mark, rest) =>
      let inner := peelBack rest
      match mark with
      | .declarator kind => { inner with declarators := kind :: inner.declarators }
      | .qualifier word =>
          let ofBase := word = .const && !rest.head?.any isDeclaratorChar
          { inner with isConst := inner.isConst || ofBase }
termination_by back.length
decreasing_by exact length_lt_of_lastMark? _found

/-- Peel marks off the end. -/
def peelEnd (s : List Char) : Peeled :=
  peelBack s.reverse

/-- A word that may stand before the name of a type. -/
inductive Keyword where
  | qualifier (word : Qualifier)
  | struct
  | classTag
  | enum
  | union
  | typename
  deriving DecidableEq, Repr

/-- The word as written. -/
def Keyword.letters : Keyword → List Char
  | qualifier word => word.letters
  | struct => ['s', 't', 'r', 'u', 'c', 't']
  | classTag => ['c', 'l', 'a', 's', 's']
  | enum => ['e', 'n', 'u', 'm']
  | union => ['u', 'n', 'i', 'o', 'n']
  | typename => ['t', 'y', 'p', 'e', 'n', 'a', 'm', 'e']

/-- All words that may stand before the name of a type. -/
def Keyword.all : List Keyword :=
  [.qualifier .const, .qualifier .volatile, .struct, .classTag, .enum, .union, .typename]

/-- A word at the front of a spelling and what follows it. -/
def firstKeyword? (s : List Char) : Option (Keyword × List Char) :=
  Keyword.all.findSome? fun word => (dropFrontWord? word.letters s).map (word, ·)

theorem length_lt_of_firstKeyword? {s rest : List Char} {word : Keyword}
    (found : firstKeyword? s = some (word, rest)) : rest.length < s.length := by
  obtain ⟨other, -, cut⟩ := List.exists_of_findSome?_eq_some found
  simp only [Option.map_eq_some_iff, Prod.mk.injEq] at cut
  obtain ⟨_, kept, rfl, rfl⟩ := cut
  refine length_dropFrontWord?_lt ?_ kept
  cases other with
  | qualifier word => cases word <;> simp [Keyword.letters, Qualifier.letters]
  | _ => simp [Keyword.letters]

/-- Peel words off the front. -/
def peelFront (s : List Char) : Peeled :=
  match _found : firstKeyword? s with
  | none => ⟨[], false, s⟩
  | some (word, rest) =>
      let inner := peelFront rest
      { inner with isConst := word = .qualifier .const || inner.isConst }
termination_by s.length
decreasing_by exact length_lt_of_firstKeyword? _found

/-- The indirection that a list of marks amounts to. -/
def indirectionOf : List Indirection → Indirection
  | [] => .none
  | [single] => single
  | _ => .multiple

/-- Everything that can be peeled off a spelling. -/
def peel (s : List Char) : Peeled :=
  let marks := peelEnd (trim s)
  let words := peelFront marks.base
  ⟨marks.declarators, marks.isConst || words.isConst, words.base⟩

/-- Take a spelling apart. -/
def ofSpelling (spelling : String) : Shape :=
  let peeled := peel spelling.toList
  ⟨String.ofList peeled.base, indirectionOf peeled.declarators, peeled.isConst⟩

/-- Something besides blanks was peeled off the spelling. -/
def isDecorated (shape : Shape) (spelling : String) : Bool :=
  shape.base ≠ trimmed spelling

/-- The type is a pointer. -/
def isPointer (shape : Shape) : Bool :=
  shape.indirection = .pointer

end Shape

end HeaderBinding
