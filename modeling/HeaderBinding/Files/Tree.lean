/-!
# Trees of files

A tree of files as a value. A folder keeps its entries in the order of their names. A program is an
entry that answers a list of arguments with a `Reply`.
-/

namespace HeaderBinding

/-- What a program leaves behind when it has ended. -/
structure Reply where
  /-- Exit status, or nothing for a program that was killed. -/
  status : Option Nat
  /-- Bytes written to the standard output. -/
  output : ByteArray
  /-- Bytes written to the standard error stream. -/
  errors : ByteArray

/-- An entry of a file system. -/
inductive FileTree where
  | file (bytes : ByteArray)
  | program (run : List String → Reply)
  | folder (entries : List (String × FileTree))

namespace FileTree

/-- Put an entry in its place by name, instead of one with the same name. -/
def setEntry (name : String) (tree : FileTree) :
    List (String × FileTree) → List (String × FileTree)
  | [] => [(name, tree)]
  | (other, old) :: rest =>
      if other < name then (other, old) :: setEntry name tree rest
      else if other = name then (name, tree) :: rest
      else (name, tree) :: (other, old) :: rest

/-- The entry at the end of a list of names. -/
def find? : FileTree → List String → Option FileTree
  | tree, [] => some tree
  | folder entries, name :: rest => (entries.lookup name).bind (find? · rest)
  | _, _ :: _ => none

/-- The tree with `new` at the end of a list of names. Folders on the way are made if missing; an
entry on the way that is no folder stays as it is. -/
def put (tree : FileTree) (names : List String) (new : FileTree) : FileTree :=
  match names, tree with
  | [], _ => new
  | name :: rest, folder entries =>
      let old := (entries.lookup name).getD (folder [])
      folder (setEntry name (old.put rest new) entries)
  | _ :: _, tree => tree

/-- The entry is a folder. -/
def isFolder : FileTree → Bool
  | folder _ => true
  | _ => false

/-- The names in a folder, in order. -/
def names : FileTree → List String
  | folder entries => entries.map Prod.fst
  | _ => []

mutual

/-- The entries below a folder as lists of names, each before those below it. -/
def inside : FileTree → List (List String)
  | folder entries => insideEntries entries
  | _ => []

/-- The given entries and those below them. -/
def insideEntries : List (String × FileTree) → List (List String)
  | [] => []
  | (name, tree) :: rest => [name] :: (inside tree).map (name :: ·) ++ insideEntries rest

end

end FileTree
end HeaderBinding
