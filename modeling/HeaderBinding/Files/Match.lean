import HeaderBinding.Files.System
import HeaderBinding.Path.Pattern

/-!
# Files that match a pattern

The components of a pattern are matched while walking down, the entries of a folder in the order of
their names. A component without wildcards is taken as it stands; `**` stands for any number of
folders.
-/

namespace HeaderBinding

/-- A walk that looks for files. -/
structure Trail where
  /-- Where it has come to. -/
  spot : Spot
  /-- It began at the root. -/
  rooted : Bool
  /-- The pieces of the path that is written for it, the last one first. -/
  written : List String

namespace Trail

open HeaderBinding.Path

/-- The path that is written for the walk. -/
def path (trail : Trail) : String :=
  (if trail.rooted then "/" else "") ++ "/".intercalate trail.written.reverse

/-- Nothing but the working folder is written. -/
def isStart (trail : Trail) : Bool :=
  !trail.rooted && trail.written.all (· = ".")

/-- The pieces that are kept when the walk goes down. Those for the working folder are not. -/
def kept (trail : Trail) : List String :=
  if trail.isStart then [] else trail.written

/-- Go down to an entry. -/
def descend? (trail : Trail) (names : List String) : Option Trail :=
  (trail.spot.descend? names).map fun spot =>
    { trail with spot, written := names.reverse ++ trail.kept }

/-- Go on by a component without wildcards. An empty one, between two slashes, is written as one
slash with what follows, and so needs something before it. -/
def goOn? (trail : Trail) (name : String) : Option Trail :=
  match trail.spot.step name with
  | .error _ => none
  | .ok spot =>
      if name ≠ "" then some { trail with spot, written := name :: trail.kept }
      else if trail.isStart then none
      else some trail

/-- Go on to a special entry, which is written in full. -/
def goOnSpecial? (trail : Trail) (name : String) : Option Trail :=
  match trail.spot.step name with
  | .error _ => none
  | .ok spot => some { trail with spot, written := name :: trail.written }

/-- The components of a pattern, each as tokens. -/
def componentTokens (pattern : String) : Except PatternError (List (List Token)) := do
  let _ ← tokens pattern
  let pieces := piecesOf pattern
  let pieces := if isRooted pattern then pieces.drop 1 else pieces
  let pieces := if pieces.getLast? = some "" then pieces.dropLast else pieces
  pieces.mapM tokens

/-- The component stands for any number of folders. -/
def isAnyFolders (component : List Token) : Bool :=
  component.contains .anyFolders

/-- The special entries of a folder that the component matches. They need a leading dot. -/
def specialEntries (component : List Token) : List String :=
  if component.head? = some (.literal '.') then
    ["..", "."].filter fun name => matchName component name.toList
  else []

/-- The paths that match the components, from where a walk has come to, in the order of the walk. -/
def matchFrom : List (List Token) → Trail → List String
  | [], trail => [trail.path]
  | component :: rest, trail =>
      let go (next? : Option Trail) : List String := (next?.map (matchFrom rest)).getD []
      match literalText? component with
      | some text => go (trail.goOn? (String.ofList text))
      | none =>
          match trail.spot.entry with
          | .folder entries =>
              if isAnyFolders component then
                match rest with
                | [] => []
                | inner :: later =>
                    if isAnyFolders inner then matchFrom (inner :: later) trail
                    else
                      (FileTree.inside (.folder entries)).flatMap fun names =>
                        if (names.getLast?).any fun name => matchName inner name.toList then
                          ((trail.descend? names).map (matchFrom later)).getD []
                        else []
              else
                ((specialEntries component).flatMap fun name => go (trail.goOnSpecial? name)) ++
                  (entries.map Prod.fst).flatMap fun name =>
                    if matchName component name.toList then go (trail.descend? [name]) else []
          | _ => []

end Trail

namespace FileSystem

open HeaderBinding.Path

/-- The start of the walk for a pattern. -/
def trailhead? (fs : FileSystem) (pattern : String) : Option Trail :=
  let rooted := isRooted pattern
  (fs.origin? pattern).map fun spot => ⟨spot, rooted, if rooted then [] else ["."]⟩

/-- The files that match a pattern, in the order of the walk. A pattern that ends in a slash asks
for folders. -/
def matching (fs : FileSystem) (pattern : String) : Except PatternError (List String) := do
  let components ← Trail.componentTokens pattern
  if pattern = "" ∨ pattern.toList.getLast? = some '/' then return []
  else
    let found := ((fs.trailhead? pattern).map (Trail.matchFrom components)).getD []
    return found.filter fs.isFile

end FileSystem
end HeaderBinding
