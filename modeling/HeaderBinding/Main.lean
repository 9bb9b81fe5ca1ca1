import HeaderBinding.Clang.Recorded
import HeaderBinding.Program

/-!
# The command

The working folder is taken in as a value, the program runs on it, and what is new or changed
afterwards is written back. The syntax tree of a header `a.h` is read from `a.h.ast.json`.
-/

namespace HeaderBinding
namespace Program

/-- A folder with the given entries. -/
def folderOfEntries (entries : List (String × FileTree)) : FileTree :=
  entries.foldl (fun folder (name, tree) => folder.put [name] tree) (.folder [])

/-- An entry of a folder with all below it, unless it cannot be read. Links to folders are not
followed. -/
partial def readEntry (entry : IO.FS.DirEntry) : IO (Option (String × FileTree)) := do
  try
    match (← entry.path.symlinkMetadata).type with
    | .dir =>
        let inner ← (← entry.path.readDir).toList.filterMapM readEntry
        return some (entry.fileName, folderOfEntries inner)
    | _ => return some (entry.fileName, .file (← IO.FS.readBinFile entry.path))
  catch _ => return none

/-- Run the program in the working folder. -/
def inWorkingFolder (arguments : List String) : IO UInt32 := do
  let folder ← IO.currentDir
  let entries ← (← folder.readDir).toList.filterMapM readEntry
  let here := (Path.piecesOf folder.toString).filter (· ≠ "")
  let root := (FileTree.folder []).put here (folderOfEntries entries)
  let files : FileSystem := { root, here }
  let files := { files with installed := [("clang", Clang.recorded files)] }
  let outcome := Program.run arguments files
  for (names, contents) in outcome.files.changesSince files do
    IO.FS.createDirAll ("/" ++ "/".intercalate names.dropLast)
    IO.FS.writeBinFile ("/" ++ "/".intercalate names) contents
  IO.print outcome.output
  IO.eprint outcome.errors
  return outcome.exitStatus.toUInt32

end Program
end HeaderBinding

/-- The command. -/
def main (arguments : List String) : IO UInt32 :=
  HeaderBinding.Program.inWorkingFolder arguments
