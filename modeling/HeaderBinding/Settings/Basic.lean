import HeaderBinding.Override.Table
import HeaderBinding.Path.Basic

/-!
# Settings

What a run of the generator needs to know, with a default for all but the headers.
-/

namespace HeaderBinding

/-- How much is logged. -/
inductive LogLevel where
  | critical
  | error
  | warning
  | info
  | debug
  deriving DecidableEq, Repr, Inhabited

namespace LogLevel

/-- The level as it is written. -/
def name : LogLevel → String
  | critical => "CRITICAL"
  | error => "ERROR"
  | warning => "WARNING"
  | info => "INFO"
  | debug => "DEBUG"

/-- The least severe messages that are logged. Nothing is more severe than an error. -/
def threshold : LogLevel → String
  | critical | error => "ERROR"
  | warning => "WARN"
  | info => "INFO"
  | debug => "DEBUG"

/-- The level of a name, whose ASCII letters may be small or capital. -/
def ofName? (text : String) : Option LogLevel :=
  match text.map Char.toUpper with
  | "CRITICAL" => some critical
  | "ERROR" => some error
  | "WARNING" | "WARN" => some warning
  | "INFO" => some info
  | "DEBUG" => some debug
  | _ => none

theorem ofName?_name (level : LogLevel) : ofName? level.name = some level := by
  cases level <;> decide +kernel

end LogLevel

/-- What is wrong with the settings or the command line they come from. -/
inductive SettingsError where
  | noHeaders
  | emptyFamily
  | missingValue (option : String)
  | unknownOption (argument : String)
  | invalidLogLevel (text : String)
  | invalidJobs (text : String)
  deriving DecidableEq, Repr

/-- The wording of an error. -/
def SettingsError.message : SettingsError → String
  | noHeaders => "no headers specified, provide at least one header pattern via --headers"
  | emptyFamily => "--prefix must be a non-empty string"
  | missingValue option => s!"option `{option}` requires a value"
  | unknownOption argument => s!"unknown option `{argument}`"
  | invalidLogLevel text =>
      s!"invalid log level `{text}`, expected one of CRITICAL, ERROR, WARNING, INFO, DEBUG"
  | invalidJobs text => s!"invalid job count `{text}`, expected a positive integer"

/-- The settings of a run. -/
structure Settings where
  /-- Patterns for the paths of the headers. -/
  headers : List String := []
  /-- Folders that are searched for included files. -/
  includes : List String := []
  /-- Folder that is searched first, and from which headers are included. -/
  includeBase? : Option String := none
  /-- Folder for the generated files. -/
  outFolder : String := "out"
  /-- What the names of generated files and classes begin with. -/
  family : String := "ocgd"
  /-- File with the mappings of the user. -/
  mappingFile? : Option String := none
  /-- Mappings of the user. -/
  overrides : OverrideTable := ∅
  clang : String := "clang"
  /-- The generated sources include the headers. -/
  includeHeaders : Bool := false
  /-- More arguments for clang. -/
  clangArguments : List String := []
  /-- Language standard of the headers. -/
  standard : String := "c++17"
  /-- Class of the host that all wrappers derive from. -/
  base : String := "Object"
  logLevel : LogLevel := .info
  /-- Number of headers that are read at the same time. -/
  jobs : Nat := 1
  deriving DecidableEq

namespace Settings

/-- The settings allow a run. -/
def check (settings : Settings) : Except SettingsError Unit :=
  if settings.headers.isEmpty then .error .noHeaders
  else if settings.family = "" then .error .emptyFamily
  else .ok ()

/-- The folders that are searched for included files: the base first, each folded and named
once. -/
def searchFolders (settings : Settings) : List String :=
  Path.distinct ((settings.includeBase?.toList ++ settings.includes).map Path.normalize)

/-- The arguments for clang before the path of the header. The user's come last, so that they can
overrule the others. -/
def toolArguments (settings : Settings) : List String :=
  ["-x", "c++", "-std=" ++ settings.standard] ++
    settings.searchFolders.map ("-I" ++ ·) ++ settings.clangArguments

end Settings
end HeaderBinding
