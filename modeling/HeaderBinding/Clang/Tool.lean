import HeaderBinding.Clang.Declarations
import HeaderBinding.Files.System
import HeaderBinding.FrontEnd
import HeaderBinding.Json.Reader
import HeaderBinding.Text.Search
import HeaderBinding.Text.Utf8

/-!
# Running clang

Clang is asked to write the syntax tree of a header as JSON. A tree counts even if clang reports
errors, since it is then the tree of what could be read.
-/

namespace HeaderBinding
namespace Clang

/-- A clang program and the arguments that choose language, standard and search paths. -/
structure Tool where
  program : String
  arguments : List String
  deriving DecidableEq, Repr

namespace Tool

/-- The arguments that ask for a syntax tree as JSON and nothing else. -/
def dumpArguments : List String :=
  ["-fsyntax-only", "-Xclang", "-ast-dump=json"]

/-- All arguments for a header. -/
def argumentsFor (tool : Tool) (header : String) : List String :=
  tool.arguments ++ dumpArguments ++ [header]

/-- What stands for an argument that no program can be given, because it holds a null character. -/
def impossibleArgument : String := "<string-with-nul>"

/-- The arguments for a header as a command shows them. -/
def shownFor (tool : Tool) (header : String) : List String :=
  (tool.argumentsFor header).map fun argument =>
    if Spot.holdsNull argument then impossibleArgument else argument

/-- Number of lines that are quoted of what clang reports. -/
def quotedLines : Nat := 8

/-- How clang ended: its exit status and the first lines of what it reported, if it reported
anything. -/
def failure (reply : Reply) : String :=
  let status := (reply.status.map toString).getD "signal"
  match (Text.lines (Text.decodeLossy reply.errors.toList).toList).take quotedLines with
  | [] => s!"exit status {status}"
  | lines => s!"exit status {status}: " ++ "\n".intercalate (lines.map String.ofList)

/-- The declarations that clang's answer for a header holds. -/
def declarationsOf (header : String) (reply : Reply) : Except HeaderError Decl.Tree :=
  match Json.ofBytes? reply.output with
  | some document =>
      match treeOf document header with
      | .ok tree => .ok tree
      | .error error => .error (.malformed header (some error.message))
  | none =>
      if reply.status = some 0 then .error (.malformed header none)
      else .error (.toolFailed header (failure reply))

/-- The front end that runs clang for each header. -/
def frontEnd (tool : Tool) (fs : FileSystem) : FrontEnd := fun header =>
  match fs.run tool.program (tool.argumentsFor header) with
  | .ok reply => declarationsOf header reply
  | .error .missing =>
      .error (.toolFailed header
        s!"{tool.program} not found: No such file or directory (os error 2)")
  | .error _ => .error (.unreadable header)

end Tool
end Clang
end HeaderBinding
