import HeaderBinding.Text.Search

/-!
# Paths

A path is a string of components between slashes. Repeated slashes, slashes at the end and inner
dots say nothing, so paths are compared by components. `normalize` folds a path lexically, without
asking any file system.
-/

namespace HeaderBinding
namespace Path

/-- One step of a path. -/
inductive Component where
  /-- The root, only ever first. -/
  | root
  /-- A dot at the front of a path without a root. -/
  | current
  /-- The enclosing folder. -/
  | parent
  /-- An entry of the folder. -/
  | name (text : String)
  deriving DecidableEq, Repr

namespace Component

/-- The component as written. -/
def text : Component → String
  | root => "/"
  | current => "."
  | parent => ".."
  | name text => text

/-- The component that a piece between slashes stands for. Empty pieces and dots are none. -/
def ofPiece? (piece : String) : Option Component :=
  if piece = "" ∨ piece = "." then none
  else if piece = ".." then some parent
  else some (name piece)

end Component

open Component

/-- The texts between the slashes of a path. -/
def piecesOf (path : String) : List String :=
  (Text.pieces '/' path.toList).map String.ofList

/-- The path begins at the root. -/
def isRooted (path : String) : Bool :=
  path.toList.head? == some '/'

/-- The components of a path. -/
def components (path : String) : List Component :=
  let steps := (piecesOf path).filterMap ofPiece?
  if isRooted path then root :: steps
  else if (piecesOf path).head? = some "." then current :: steps
  else steps

/-- The path with the given components. -/
def render : List Component → String
  | root :: rest => "/" ++ "/".intercalate (rest.map text)
  | steps => "/".intercalate (steps.map text)

/-- The two paths have the same components. -/
def same (left right : String) : Bool :=
  components left = components right

/-- Fold the components after those of `stack`, which holds the folded ones backwards. -/
def foldOnto (stack : List Component) : List Component → List Component
  | [] => stack.reverse
  | current :: rest => foldOnto stack rest
  | parent :: rest =>
      match stack with
      | name _ :: outer => foldOnto outer rest
      | root :: _ => foldOnto stack rest
      | _ => foldOnto (parent :: stack) rest
  | step :: rest => foldOnto (step :: stack) rest

/-- The components with dots dropped and each name before a `..` cancelled; a lone dot if nothing
is left. -/
def normalComponents (steps : List Component) : List Component :=
  match foldOnto [] steps with
  | [] => [current]
  | folded => folded

/-- The path folded lexically. -/
def normalize (path : String) : String :=
  render (normalComponents (components path))

/-- What leads from `base` down to `path`, both folded. There is no such path if `path` is not
below `base`, or only by leaving it again. -/
def below? (base path : List Component) : Option (List Component) :=
  let rest :=
    if base = [current] then if path.head? = some root then none else some path
    else base.isPrefixOf? path
  rest.filter fun steps => steps ≠ [] && steps.head? ≠ some parent

/-- A path for `file`, as seen from `folder`. -/
def join (folder file : String) : String :=
  if isRooted file || folder = "" then file
  else if folder.toList.getLast? = some '/' then folder ++ file
  else folder ++ "/" ++ file

/-- Each path at its first occurrence only, by components. -/
def distinct (paths : List String) : List String :=
  (paths.foldl
    (fun (seen, kept) path =>
      let steps := components path
      if seen.contains steps then (seen, kept) else (steps :: seen, path :: kept))
    (([], []) : List (List Component) × List String)).2.reverse

end Path
end HeaderBinding
