import HeaderBinding.Files.Tree

/-!
# Spots in a tree of files

A spot is an entry of a tree together with the way that leads to it from the root, so that a walk
goes down by a name and up by `..` without starting over. A walk takes one step at a time: `..`
leaves the folder that was really entered, and a step through an entry that is no folder fails.
-/

namespace HeaderBinding

/-- Why a path leads nowhere. -/
inductive PathFault where
  /-- An entry is missing. -/
  | missing
  /-- An entry on the way is no folder. -/
  | notFolder
  /-- A name, a path or an argument is too long or holds a null character. -/
  | invalid
  /-- There is an entry already. -/
  | occupied
  deriving DecidableEq, Repr

/-- An entry of a tree and the way to it. -/
structure Spot where
  entry : FileTree
  /-- The name of the entry and the folder that holds it, then the same of this folder, up to the
  root. -/
  around : List (String × FileTree)

namespace Spot

/-- The root of a tree. -/
def ofRoot (root : FileTree) : Spot := ⟨root, []⟩

/-- The names that lead to the spot from the root. -/
def place (spot : Spot) : List String :=
  (spot.around.map Prod.fst).reverse

/-- The entry with the given name in the folder at the spot. -/
def enter? (spot : Spot) (name : String) : Option Spot :=
  match spot.entry with
  | .folder entries =>
      (entries.lookup name).map fun entry => ⟨entry, (name, spot.entry) :: spot.around⟩
  | _ => none

/-- Go down by several names. -/
def descend? (spot : Spot) : List String → Option Spot
  | [] => some spot
  | name :: rest => (spot.enter? name).bind (descend? · rest)

/-- The folder that holds the entry. The root is held by itself. -/
def leave (spot : Spot) : Spot :=
  match spot.around with
  | [] => spot
  | (_, folder) :: around => ⟨folder, around⟩

/-- Longest name of an entry, in bytes. -/
def maxName : Nat := 255

/-- The text holds the character that no path can hold. -/
def holdsNull (text : String) : Bool :=
  text.toList.contains '\x00'

/-- A name that an entry can have. -/
def validName (name : String) : Bool :=
  name.utf8ByteSize ≤ maxName && !holdsNull name

/-- Take the step that one piece of a path stands for. -/
def step (spot : Spot) (piece : String) : Except PathFault Spot :=
  if !validName piece then .error .invalid
  else if !spot.entry.isFolder then .error .notFolder
  else if piece = "" ∨ piece = "." then .ok spot
  else if piece = ".." then .ok spot.leave
  else
    match spot.enter? piece with
    | some inner => .ok inner
    | none => .error .missing

/-- Follow the pieces of a path. -/
def walk (spot : Spot) : List String → Except PathFault Spot
  | [] => .ok spot
  | piece :: rest => spot.step piece >>= (walk · rest)

end Spot
end HeaderBinding
