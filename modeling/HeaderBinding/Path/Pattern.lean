/-!
# Wildcard patterns for paths

In a component of a pattern `?` stands for one character, `*` for any number of characters and
`[…]` for one of a class, or with `!` for one outside of it. The component `**` stands for any
number of folders.
-/

namespace HeaderBinding
namespace Path

/-- What is wrong with a pattern. -/
inductive PatternFault where
  /-- More than two `*` in a row. -/
  | wildcards
  /-- A `**` that is not a whole component. -/
  | recursive
  /-- A class without its end. -/
  | range
  deriving DecidableEq, Repr

/-- A fault and the number of characters before it. -/
structure PatternError where
  position : Nat
  fault : PatternFault
  deriving DecidableEq, Repr

/-- The wording of a fault. -/
def PatternFault.message : PatternFault → String
  | wildcards => "wildcards are either regular `*` or recursive `**`"
  | recursive => "recursive wildcards must form a single path component"
  | range => "invalid range pattern"

/-- The wording of an error. -/
def PatternError.message (error : PatternError) : String :=
  s!"Pattern syntax error near position {error.position}: {error.fault.message}"

/-- One member of a class. -/
inductive ClassItem where
  | single (c : Char)
  | range (first last : Char)
  deriving DecidableEq, Repr

/-- The character belongs to the member. -/
def ClassItem.holds (c : Char) : ClassItem → Bool
  | single d => c == d
  | range first last => first ≤ c && c ≤ last

/-- One element of a pattern. -/
inductive Token where
  | literal (c : Char)
  | anyChar
  | anySequence
  | anyFolders
  | within (items : List ClassItem)
  | except (items : List ClassItem)
  deriving DecidableEq, Repr

/-- The members of a class, from the text between its brackets. -/
def classItems : List Char → List ClassItem
  | first :: '-' :: last :: rest => .range first last :: classItems rest
  | c :: rest => .single c :: classItems rest
  | [] => []

/-- The text of a class up to its closing bracket, and what follows. The first character belongs
to the class whatever it is. -/
def classBody? : List Char → Option (List Char × List Char)
  | [] => none
  | first :: rest =>
      if rest.contains ']' then
        some (first :: rest.takeWhile (· ≠ ']'), (rest.dropWhile (· ≠ ']')).drop 1)
      else none

/-- The tokens of the pattern text that follows `position` characters, the last of which was
`before`. Each step takes a character, so `fuel` may be the length of the text. -/
def tokensFrom (fuel position : Nat) (before : Option Char) (s : List Char) :
    Except PatternError (List Token) :=
  match fuel, s with
  | 0, _ | _, [] => .ok []
  | fuel + 1, '?' :: rest => do
      return .anyChar :: (← tokensFrom fuel (position + 1) (some '?') rest)
  | fuel + 1, '*' :: rest =>
      let stars := 1 + (rest.takeWhile (· = '*')).length
      let rest := rest.dropWhile (· = '*')
      if 2 < stars then .error ⟨position + 2, .wildcards⟩
      else if stars = 1 then do
        return .anySequence :: (← tokensFrom fuel (position + 1) (some '*') rest)
      else if before ≠ none ∧ before ≠ some '/' then .error ⟨position - 1, .recursive⟩
      else
        match rest with
        | [] => .ok [.anyFolders]
        | c :: rest =>
            if c = '/' then do
              return .anyFolders :: (← tokensFrom fuel (position + 3) (some '/') rest)
            else .error ⟨position + 2, .recursive⟩
  | fuel + 1, '[' :: '!' :: rest =>
      match classBody? rest with
      | none => .error ⟨position, .range⟩
      | some (body, later) => do
          let tokens ← tokensFrom fuel (position + 3 + body.length) (some ']') later
          return .except (classItems body) :: tokens
  | fuel + 1, '[' :: rest =>
      match classBody? rest with
      | none => .error ⟨position, .range⟩
      | some (body, later) => do
          let tokens ← tokensFrom fuel (position + 2 + body.length) (some ']') later
          return .within (classItems body) :: tokens
  | fuel + 1, c :: rest => do
      return .literal c :: (← tokensFrom fuel (position + 1) (some c) rest)

/-- The tokens of a pattern. -/
def tokens (pattern : String) : Except PatternError (List Token) :=
  let s := pattern.toList
  tokensFrom s.length 0 none s

/-- The text of a pattern that holds literals only. -/
def literalText? : List Token → Option (List Char)
  | [] => some []
  | .literal c :: rest => (literalText? rest).map (c :: ·)
  | _ => none

/-- The token accepts the character. -/
def Token.accepts (c : Char) : Token → Bool
  | literal d => c == d
  | anyChar => true
  | within items => items.any (·.holds c)
  | except items => !items.any (·.holds c)
  | anySequence | anyFolders => false

/-- The token accepts any number of characters. -/
def Token.isSequence : Token → Bool
  | anySequence | anyFolders => true
  | _ => false

/-- For each place of a list, whether there is a `true` at it or later. -/
def anyLater : List Bool → List Bool
  | [] => []
  | flag :: rest =>
      let later := anyLater rest
      (flag || later.headD false) :: later

/-- A row for a name says of each of its suffixes, from the whole name down to the empty text,
whether some tokens match it. This is the row for the tokens with one more in front. -/
def Token.rowBefore (token : Token) (name : List Char) (row : List Bool) : List Bool :=
  if token.isSequence then anyLater row
  else List.zipWith (fun c later => token.accepts c && later) name row.tail ++ [false]

/-- The row for a name: whether the tokens match the whole of a suffix, for each suffix. -/
def matchRow (tokens : List Token) (name : List Char) : List Bool :=
  tokens.foldr (fun token row => token.rowBefore name row) (name.map (fun _ => false) ++ [true])

/-- The tokens match the whole of a name. -/
def matchName (tokens : List Token) (name : List Char) : Bool :=
  (matchRow tokens name).headD false

end Path
end HeaderBinding
