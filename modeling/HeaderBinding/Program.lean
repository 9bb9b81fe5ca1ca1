import HeaderBinding.Generation
import HeaderBinding.Settings.CommandLine

/-!
# The program

The whole program as a function of its arguments and of the files it finds.
-/

namespace HeaderBinding
namespace Program

/-- Version of the program. -/
def version : String := "0.1.0"

/-- How the program ended. -/
structure Outcome where
  exitStatus : Nat
  /-- Text on the standard output. -/
  output : String := ""
  /-- Text on the standard error stream. -/
  errors : String := ""
  /-- The files afterwards. -/
  files : FileSystem

/-- The line that reports an error. -/
def errorLine (message : String) : String :=
  s!"error: {message}\n"

/-- The line that reports a run. -/
def report (settings : Settings) (summary : Summary) : String :=
  s!"Wrapped {summary.classes} class(es) from {summary.headers} header(s) into " ++
    s!"{settings.outFolder} ({summary.skipped} skipped)\n"

/-- Generate wrappers with clang as the front end. -/
def generate (settings : Settings) (files : FileSystem) : Outcome :=
  let settings := settings.loadMapping files
  match settings.generate (settings.tool.frontEnd files) files with
  | (files, .ok summary) => { exitStatus := 0, output := report settings summary, files }
  | (files, .error error) =>
      { exitStatus := error.exitStatus, errors := errorLine error.message, files }

/-- Do what the arguments ask for. -/
def run (arguments : List String) (files : FileSystem) : Outcome :=
  match CommandLine.read arguments with
  | .ok .help => { exitStatus := 0, output := CommandLine.usage, files }
  | .ok .version => { exitStatus := 0, output := s!"gdcpp {version}\n", files }
  | .ok (.run settings) => generate settings files
  | .error error =>
      { exitStatus := 2, errors := errorLine error.message ++ "\n" ++ CommandLine.usage, files }

end Program
end HeaderBinding
