import HeaderBinding.Settings.Basic
import HeaderBinding.Text.Affix
import HeaderBinding.Text.Decimal
import HeaderBinding.Text.Search

/-!
# The command line

Arguments are read one after the other. An option may ask for its value in the next argument, or
take in arguments until one that belongs to something else; `Pending` says what the next argument
is for. A long option may also have its value after an equals sign.
-/

namespace HeaderBinding
namespace CommandLine

/-- What the command line asks for. -/
inductive Command where
  | run (settings : Settings)
  | help
  | version
  deriving DecidableEq

/-- An option with one value. -/
inductive ValueOption where
  | searchFolder
  | includeBase
  | outFolder
  | family
  | mapping
  | clang
  | standard
  | base
  | logLevel
  | jobs
  deriving DecidableEq, Repr

/-- An option. -/
inductive Flag where
  | help
  | version
  | includeHeaders
  /-- The header patterns: all arguments up to the next that begins with a hyphen. -/
  | headers
  /-- Arguments for clang: all up to the next long option or a lone `--`. -/
  | clangArguments
  | value (option : ValueOption)
  deriving DecidableEq, Repr

/-- The option of a name. -/
def Flag.ofName? : String → Option Flag
  | "-h" | "--help" => some help
  | "-V" | "--version" => some version
  | "-H" | "--headers" => some headers
  | "-I" => some (value .searchFolder)
  | "--include-rel-base" => some (value .includeBase)
  | "-o" | "--out-dir" => some (value .outFolder)
  | "--prefix" => some (value .family)
  | "--map" => some (value .mapping)
  | "--clang" => some (value .clang)
  | "--include-originals" => some includeHeaders
  | "--clang-args" => some clangArguments
  | "--std" => some (value .standard)
  | "--godot-base" => some (value .base)
  | "--log-level" => some (value .logLevel)
  | "-j" | "--jobs" => some (value .jobs)
  | _ => none

/-- The argument begins with the text. -/
def begins (front argument : String) : Bool :=
  (Text.dropFront? front.toList argument.toList).isSome

/-- The name of a long option and its value, from an argument that holds both. -/
def inlineValue? (argument : String) : Option (String × String) :=
  if begins "--" argument then
    (Text.cut? '=' argument.toList).map fun (name, value) =>
      (String.ofList name, String.ofList value)
  else none

/-- The name in an argument and the value after it, which only a long option can have. -/
def nameAndValue (argument : String) : String × Option String :=
  match inlineValue? argument with
  | some (name, value) => (name, some value)
  | none => (argument, none)

/-- The argument is a long option, with or without a value. -/
def isLongOption (argument : String) : Bool :=
  begins "--" argument && (Flag.ofName? (nameAndValue argument).1).isSome

/-- The settings with the value of an option. -/
def assign (settings : Settings) (option : ValueOption) (value : String) :
    Except SettingsError Settings :=
  match option with
  | .searchFolder => .ok { settings with includes := settings.includes ++ [value] }
  | .includeBase => .ok { settings with includeBase? := some value }
  | .outFolder => .ok { settings with outFolder := value }
  | .family => .ok { settings with family := value }
  | .mapping => .ok { settings with mappingFile? := some value }
  | .clang => .ok { settings with clang := value }
  | .standard => .ok { settings with standard := value }
  | .base => .ok { settings with base := value }
  | .logLevel =>
      match LogLevel.ofName? value with
      | some logLevel => .ok { settings with logLevel }
      | none => .error (.invalidLogLevel value)
  | .jobs =>
      match (Text.readWord? value).filter (0 < ·) with
      | some jobs => .ok { settings with jobs }
      | none => .error (.invalidJobs value)

/-- The settings with one more header pattern. -/
def addPattern (settings : Settings) (pattern : String) : Settings :=
  { settings with headers := settings.headers ++ [pattern] }

/-- The settings with one more argument for clang. -/
def addClangArgument (settings : Settings) (argument : String) : Settings :=
  { settings with clangArguments := settings.clangArguments ++ [argument] }

/-- What the next argument is for. -/
inductive Pending where
  | option
  /-- The value of an option, given with the option's name. -/
  | value (option : ValueOption) (name : String)
  /-- The first header pattern, given with the option's name. -/
  | firstPattern (name : String)
  /-- A further header pattern, or an option. -/
  | pattern
  /-- An argument for clang, or what ends them. -/
  | clangArgument
  deriving DecidableEq, Repr

/-- How far the command line has been read. -/
inductive Progress where
  /-- The rest does not matter. -/
  | done (command : Command)
  | reading (settings : Settings) (pending : Pending)
  deriving DecidableEq

/-- Take in an argument that names an option. -/
def startOption (settings : Settings) (argument : String) : Except SettingsError Progress :=
  let (name, value?) := nameAndValue argument
  match Flag.ofName? name, value? with
  | some .help, _ => .ok (.done .help)
  | some .version, _ => .ok (.done .version)
  | some .includeHeaders, _ => .ok (.reading { settings with includeHeaders := true } .option)
  | some .headers, none => .ok (.reading settings (.firstPattern name))
  | some .headers, some pattern => .ok (.reading (addPattern settings pattern) .pattern)
  | some .clangArguments, none => .ok (.reading settings .clangArgument)
  | some .clangArguments, some first =>
      .ok (.reading (addClangArgument settings first) .clangArgument)
  | some (.value option), none => .ok (.reading settings (.value option name))
  | some (.value option), some value => do
      return .reading (← assign settings option value) .option
  | none, _ =>
      match Text.dropFront? ['-', 'I'] argument.toList with
      | some folder => do
          return .reading (← assign settings .searchFolder (String.ofList folder)) .option
      | none => .error (.unknownOption argument)

/-- Take in an argument. -/
def step (settings : Settings) (pending : Pending) (argument : String) :
    Except SettingsError Progress :=
  match pending with
  | .option => startOption settings argument
  | .value option _ => do
      return .reading (← assign settings option argument) .option
  | .firstPattern name =>
      if begins "-" argument then .error (.missingValue name)
      else .ok (.reading (addPattern settings argument) .pattern)
  | .pattern =>
      if begins "-" argument then startOption settings argument
      else .ok (.reading (addPattern settings argument) .pattern)
  | .clangArgument =>
      if argument = "--" then .ok (.reading settings .option)
      else if isLongOption argument then startOption settings argument
      else .ok (.reading (addClangArgument settings argument) .clangArgument)

/-- The command, if the arguments end here. -/
def finish (settings : Settings) : Pending → Except SettingsError Command
  | .value _ name | .firstPattern name => .error (.missingValue name)
  | .option | .pattern | .clangArgument => .ok (.run settings)

/-- Read the rest of the arguments. -/
def readFrom (settings : Settings) (pending : Pending) :
    List String → Except SettingsError Command
  | [] => finish settings pending
  | argument :: rest =>
      match step settings pending argument with
      | .error error => .error error
      | .ok (.done command) => .ok command
      | .ok (.reading settings pending) => readFrom settings pending rest

/-- What the arguments ask for. -/
def read (arguments : List String) : Except SettingsError Command :=
  readFrom {} .option arguments

/-- What the program says about its own use. -/
def usage : String :=
  "\n".intercalate
    ["gdcpp - generate Godot GDExtension wrappers for C++ headers",
      "",
      "Usage: gdcpp --headers <glob>... [options]",
      "",
      "Options:",
      "  -H, --headers <glob>...     Header files to wrap (glob patterns, repeatable)",
      "  -I <dir>, -I<dir>           Include search path (repeatable)",
      "  --include-rel-base <dir>    Searched first; original headers are included relative to it",
      "  -o, --out-dir <dir>         Output directory (default: out)",
      "  --prefix <prefix>           Prefix of generated files and classes (default: ocgd)",
      "  --map <file>                JSON type mapping overrides",
      "  --clang <path>              clang executable (default: clang)",
      "  --include-originals         Include the input headers in every wrapper unit",
      "  --clang-args <arg>...       Extra clang arguments, up to the next gdcpp option or `--`",
      "  --std <std>                 C++ standard (default: c++17)",
      "  --godot-base <class>        Godot base class of every wrapper (default: Object)",
      "  --log-level <level>         CRITICAL, ERROR, WARNING, INFO or DEBUG (default: INFO)",
      "  -j, --jobs <n>              Parse headers on n threads (default: 1)",
      "  -h, --help                  Print this help",
      "  -V, --version               Print the version",
      "",
      "Options taking one value also accept --option=value.",
      "RUST_LOG overrides --log-level.",
      ""]

end CommandLine
end HeaderBinding
