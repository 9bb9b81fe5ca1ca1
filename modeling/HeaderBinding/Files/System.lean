import HeaderBinding.Files.Spot
import HeaderBinding.Path.Basic

/-!
# File systems

A file system is a tree of files, the folder from which relative paths start and the programs that
can be run by name. A path that is too long leads nowhere, whatever it names.
-/

namespace HeaderBinding

/-- A tree of files, a working folder and the programs that can be run by name. -/
structure FileSystem where
  /-- The root folder. -/
  root : FileTree
  /-- The names that lead from the root to the working folder. -/
  here : List String
  /-- The installed programs. -/
  installed : List (String × (List String → Reply)) := []

namespace FileSystem

open HeaderBinding.Path (piecesOf isRooted components render)
open Spot (holdsNull validName)

/-- Longest path, in bytes. -/
def maxPath : Nat := 4095

/-- Longest argument of a program, in bytes. -/
def maxArgument : Nat := 131071

/-- A text that can be a path, whether it leads anywhere or not. -/
def validPath (path : String) : Bool :=
  path.utf8ByteSize ≤ maxPath && !holdsNull path

/-- The spot from which a path starts. -/
def origin? (fs : FileSystem) (path : String) : Option Spot :=
  (Spot.ofRoot fs.root).descend? (if isRooted path then [] else fs.here)

/-- Follow the pieces of a path from where it starts. -/
def walk (fs : FileSystem) (path : String) (pieces : List String) : Except PathFault Spot :=
  match fs.origin? path with
  | some spot => spot.walk pieces
  | none => .error .missing

/-- The spot that a path names. -/
def resolve (fs : FileSystem) (path : String) : Except PathFault Spot :=
  if path = "" then .error .missing
  else if !validPath path then .error .invalid
  else fs.walk path (piecesOf path)

/-- The entry that a path names. -/
def entry? (fs : FileSystem) (path : String) : Option FileTree :=
  match fs.resolve path with
  | .ok spot => some spot.entry
  | .error _ => none

/-- The path names a folder. -/
def isFolder (fs : FileSystem) (path : String) : Bool :=
  (fs.entry? path).any FileTree.isFolder

/-- The path names an entry that is no folder. -/
def isFile (fs : FileSystem) (path : String) : Bool :=
  (fs.entry? path).any fun tree => !tree.isFolder

/-- The bytes of the file that a path names. -/
def read? (fs : FileSystem) (path : String) : Option ByteArray :=
  match fs.entry? path with
  | some (.file bytes) => some bytes
  | some (.program _) => some ByteArray.empty
  | _ => none

/-- The names in the folder that a path names, in order. -/
def list (fs : FileSystem) (path : String) : List String :=
  ((fs.entry? path).map FileTree.names).getD []

/-- The place for a new entry: its folder must be there, and the name may be free or taken. -/
def newPlace (fs : FileSystem) (path : String) (pieces : List String) :
    Except PathFault (List String) :=
  match pieces.getLast? with
  | none => .error .missing
  | some name =>
      match fs.walk path pieces.dropLast with
      | .error fault => .error fault
      | .ok spot =>
          if !validName name then .error .invalid
          else if !spot.entry.isFolder then .error .notFolder
          else if name = "" ∨ name = "." ∨ name = ".." then .error .occupied
          else .ok (spot.place ++ [name])

/-- The file system with a file at the path, which must not name a folder. -/
def write (fs : FileSystem) (path : String) (bytes : ByteArray) : Option FileSystem :=
  if path = "" ∨ !validPath path then none
  else
    match fs.newPlace path (piecesOf path) with
    | .error _ => none
    | .ok place =>
        if (fs.root.find? place).any FileTree.isFolder then none
        else some { fs with root := fs.root.put place (.file bytes) }

/-- The file system with a new empty folder at the path. -/
def makeFolder (fs : FileSystem) (path : String) : Except PathFault FileSystem :=
  let pieces := ((piecesOf path).reverse.dropWhile (· = "")).reverse
  if path = "" then .error .missing
  else if !validPath path then .error .invalid
  else if pieces.isEmpty then .error .occupied
  else
    match fs.newPlace path pieces with
    | .error fault => .error fault
    | .ok place =>
        if (fs.root.find? place).isSome then .error .occupied
        else .ok { fs with root := fs.root.put place (.folder []) }

/-- The path and the folders around it, from the inside out, without the root and without the
working folder. -/
def enclosing (path : String) : List String :=
  let steps := components path
  let outer := (List.range steps.length).reverse.map fun count => render (steps.take count)
  if path = "" then []
  else (path :: outer).takeWhile fun folder => folder ≠ "" && folder ≠ "/"

/-- Make the first folder that can be made. The result lists the missing ones inside it, from the
outside in, and is nothing if a folder cannot be made. -/
def makeOutermost (fs : FileSystem) (missing : List String) :
    List String → Option (FileSystem × List String)
  | [] => some (fs, missing)
  | folder :: outer =>
      match fs.makeFolder folder with
      | .ok made => some (made, missing)
      | .error .missing => fs.makeOutermost (folder :: missing) outer
      | .error .occupied => if fs.isFolder folder then some (fs, missing) else none
      | .error _ => none

/-- Make each of the folders that is not there, up to the first that cannot be made. -/
def makeEach (fs : FileSystem) : List String → FileSystem × Bool
  | [] => (fs, true)
  | folder :: rest =>
      match fs.makeFolder folder with
      | .ok made => made.makeEach rest
      | .error .occupied => if fs.isFolder folder then fs.makeEach rest else (fs, false)
      | .error _ => (fs, false)

/-- The file system with a folder at the path, made together with the missing folders around it,
and whether they could all be made. Those made before one that cannot be made stay. -/
def makeFolders (fs : FileSystem) (path : String) : FileSystem × Bool :=
  match fs.makeOutermost [] (enclosing path) with
  | none => (fs, false)
  | some (made, inner) => made.makeEach inner

/-- Run the program at the path, or the installed one if the path is a bare name. -/
def run (fs : FileSystem) (path : String) (arguments : List String) : Except PathFault Reply :=
  let start (program : List String → Reply) : Except PathFault Reply :=
    if arguments.any fun argument => maxArgument < argument.utf8ByteSize then .error .invalid
    else .ok (program arguments)
  if (path :: arguments).any holdsNull then .error .invalid
  else if path.toList.contains '/' then
    match fs.resolve path with
    | .error fault => .error fault
    | .ok spot =>
        match spot.entry with
        | .program program => start program
        | _ => .error .occupied
  else
    match fs.installed.lookup path with
    | some program => start program
    | none =>
        if path = "." ∨ path = ".." then .error .occupied
        else if validName path then .error .missing
        else .error .invalid

/-- The files that are new or changed since `before`, by the names that lead to them. -/
def changesSince (fs before : FileSystem) : List (List String × ByteArray) :=
  fs.root.inside.filterMap fun names =>
    match fs.root.find? names, before.root.find? names with
    | some (.file new), some (.file old) => if new == old then none else some (names, new)
    | some (.file new), _ => some (names, new)
    | _, _ => none

end FileSystem
end HeaderBinding
