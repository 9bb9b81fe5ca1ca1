import HeaderBinding.Api.Scan
import HeaderBinding.Clang.Tool
import HeaderBinding.Files.Match
import HeaderBinding.FrontEnd
import HeaderBinding.Override.Document
import HeaderBinding.Path.Include
import HeaderBinding.Settings.Basic
import HeaderBinding.Wrapper.Files

/-!
# Generating wrappers

A run finds the headers that the patterns match, reads them, collects the types and classes they
declare, and writes the wrapper files. Headers that cannot be read are skipped; a run fails only on
bad settings, on a bad pattern, or if a file cannot be written.
-/

namespace HeaderBinding

/-- Why a run failed. -/
inductive GenerationError where
  | settings (error : SettingsError)
  | invalidPattern (pattern : String) (error : Path.PatternError)
  | unwritable (path : String)
  deriving DecidableEq, Repr

namespace GenerationError

/-- The wording of an error. -/
def message : GenerationError → String
  | settings error => error.message
  | invalidPattern pattern error => s!"invalid header pattern `{pattern}`: {error.message}"
  | unwritable path => s!"failed to write {path}"

/-- Exit status of the program: bad input is told apart from a failure to write. -/
def exitStatus : GenerationError → Nat
  | settings _ | invalidPattern _ _ => 2
  | unwritable _ => 1

end GenerationError

/-- The wrappers for a set of headers and what led to them. -/
structure Generation where
  registry : Registry
  api : Api
  files : List GeneratedFile

/-- What a run did. -/
structure Summary where
  /-- Number of headers that the patterns match. -/
  headers : Nat
  /-- Number of headers that could not be read. -/
  skipped : Nat
  /-- Number of known types. -/
  types : Nat
  /-- Number of wrapped classes. -/
  classes : Nat
  /-- Paths of the written files. -/
  written : List String
  deriving DecidableEq, Repr

/-- The types of a set of headers, which may be taken in each by itself. -/
def HeaderSet.registry (set : HeaderSet) (overrides : OverrideTable) (parallel : Bool) :
    Registry :=
  if parallel then Registry.discoverParallel set.trees overrides
  else Registry.discover set.trees overrides

/-- The wrappers for a set of headers. -/
def HeaderSet.generation (set : HeaderSet) (overrides : OverrideTable) (parallel : Bool)
    (options : EmitOptions) : Generation :=
  let registry := set.registry overrides parallel
  let api := Api.scan set.trees registry
  ⟨registry, api, Wrapper.emit ⟨registry, overrides⟩ options api⟩

namespace FileSystem

/-- The files that the patterns match, each at its first occurrence. -/
def expand (fs : FileSystem) (patterns : List String) : Except GenerationError (List String) := do
  let matched ← patterns.mapM fun pattern =>
    (fs.matching pattern).mapError (GenerationError.invalidPattern pattern)
  return Path.distinct matched.flatten

/-- Write files into a folder, up to the first that cannot be written. The paths of those written
before this one are given, from the last to the first. -/
def writeFiles (fs : FileSystem) (folder : String) (written : List String) :
    List GeneratedFile → FileSystem × Except GenerationError (List String)
  | [] => (fs, .ok written.reverse)
  | file :: rest =>
      let path := Path.join folder file.name
      match fs.write path file.contents.toUTF8 with
      | none => (fs, .error (.unwritable path))
      | some fs => fs.writeFiles folder (path :: written) rest

/-- Write files into a folder, which is made if it is missing. -/
def writeAll (fs : FileSystem) (folder : String) (files : List GeneratedFile) :
    FileSystem × Except GenerationError (List String) :=
  match fs.makeFolders folder with
  | (fs, true) => fs.writeFiles folder [] files
  | (fs, false) => (fs, .error (.unwritable folder))

end FileSystem

namespace Settings

/-- How the wrapper files are generated for headers. -/
def emitOptions (settings : Settings) (headers : List String) : EmitOptions where
  family := settings.family
  base := settings.base
  includes :=
    if settings.includeHeaders then Path.includeNames settings.includeBase? headers else []

/-- The headers that the settings ask for. -/
def findHeaders (settings : Settings) (fs : FileSystem) : Except GenerationError (List String) := do
  settings.check.mapError .settings
  fs.expand settings.headers

/-- Generate wrappers. -/
def generate (settings : Settings) (frontEnd : FrontEnd) (fs : FileSystem) :
    FileSystem × Except GenerationError Summary :=
  match settings.findHeaders fs with
  | .error error => (fs, .error error)
  | .ok paths =>
      let set := frontEnd.readAll paths
      let generation :=
        set.generation settings.overrides (1 < settings.jobs) (settings.emitOptions paths)
      let (fs, outcome) := fs.writeAll settings.outFolder generation.files
      (fs, outcome.map fun written =>
        { headers := paths.length, skipped := set.skipped.length,
          types := generation.registry.size, classes := generation.api.size, written })

/-- The settings with the mappings of the mapping file. Without a readable file there are none. -/
def loadMapping (settings : Settings) (fs : FileSystem) : Settings :=
  match settings.mappingFile? with
  | none => settings
  | some path => { settings with overrides := OverrideTable.ofFileOrEmpty (fs.read? path) }

/-- The clang that the settings ask for. -/
def tool (settings : Settings) : Clang.Tool :=
  ⟨settings.clang, settings.toolArguments⟩

end Settings
end HeaderBinding
