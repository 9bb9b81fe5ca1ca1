import HeaderBinding.Files.System

/-!
# Recorded syntax trees

A stand-in for clang that answers with syntax trees which clang has written beforehand, each into a
file beside its header.
-/

namespace HeaderBinding
namespace Clang

/-- The file with the syntax tree of a header. -/
def recordOf (header : String) : String :=
  header ++ ".ast.json"

/-- Answer with the recorded tree of the header, which is the last argument. -/
def recorded (files : FileSystem) (arguments : List String) : Reply :=
  let record := recordOf (arguments.getLast?.getD "")
  match files.read? record with
  | some tree => { status := some 0, output := tree, errors := ByteArray.empty }
  | none =>
      { status := some 1, output := ByteArray.empty
        errors := s!"no recorded syntax tree: {record}\n".toUTF8 }

end Clang
end HeaderBinding
