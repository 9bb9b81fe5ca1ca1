import HeaderBinding.Text.Search
import HeaderBinding.Wrapper.Class
import HeaderBinding.Writer

/-!
# Text of wrapper classes

The header and the source file of a wrapper class, as the calls of the writer that write them. The
header declares the functions, the source file binds them to names for scripts and defines them, all
in the same order.
-/

namespace HeaderBinding
namespace Wrapper

open Writer (Call written)

/-- A character of a string literal as written. -/
def escapedChar (c : Char) : List Char :=
  match c with
  | '"' => ['\\', '"']
  | '\\' => ['\\', '\\']
  | '\n' => ['\\', 'n']
  | c => [c]

/-- Text as it stands between the quotes of a string literal. -/
def escaped (text : String) : String :=
  String.ofList (text.toList.flatMap escapedChar)

/-- A remark as a comment. The end of a comment that stands in the remark is broken up. -/
def noteComment (note : String) : String :=
  "/* " ++ String.ofList (Text.replacePair '*' '/' ['*', ' ', '/'] note.toList) ++ " */"

/-- A parameter as written. -/
def Param.code (param : Param) : String :=
  match param.note? with
  | none => s!"{param.type} {param.name}"
  | some note => s!"{param.type} {param.name} " ++ noteComment note

/-- Parameters as written, without parentheses. -/
def paramList (params : List Param) : String :=
  ", ".intercalate (params.map Param.code)

/-- The name and the parameter names of a function for the binding to scripts. -/
def bindingSignature (scriptName : String) (params : List Param) : String :=
  let names := params.map fun param => ", \"" ++ param.name ++ "\""
  s!"D_METHOD(\"" ++ scriptName ++ "\"" ++ String.join names ++ ")"

mutual

/-- The calls that write a statement. -/
def Stmt.calls : Stmt → List Call
  | .comment text => [.line s!"// {text}"]
  | .todo text => [.line s!"// TODO: {text}"]
  | .declare type name => [.line (s!"{type} {name}" ++ "\x7b\x7d;")]
  | .expr value => [.line (value.code ++ ";")]
  | .bind name value => [.line (s!"auto {name} = " ++ value.code ++ ";")]
  | .ret none => [.line "return;"]
  | .ret (some value) => [.line ("return " ++ value.code ++ ";")]
  | .report message => [.line ("ERR_PRINT(\"" ++ escaped message ++ "\");")]
  | .guard condition body =>
      [.openBlock ("if (" ++ condition.code ++ ")")] ++ bodyCalls body ++ [.closeBlock "\x7d"]

/-- The calls that write statements. -/
def bodyCalls : List Stmt → List Call
  | [] => []
  | stmt :: rest => stmt.calls ++ bodyCalls rest

end

namespace Method

/-- What follows the parameters of a function for constant objects. -/
def constMark (method : Method) : String :=
  if method.isConst then " const" else ""

/-- The declaration of a function. -/
def declaration (method : Method) : String :=
  let static := if method.isStatic then "static " else ""
  let params := paramList method.params
  s!"{static}{method.result} {method.ident}({params}){method.constMark};"

/-- The first line of the definition of a function. -/
def definitionHead (className : String) (method : Method) : String :=
  let params := paramList method.params
  s!"{method.result} {className}::{method.ident}({params}){method.constMark}"

/-- The calls that write the definition of a function. -/
def definitionCalls (className : String) (method : Method) : List Call :=
  [.openBlock (method.definitionHead className)] ++ bodyCalls method.body ++ [.closeBlock "\x7d"]

/-- The binding of a function to its name for scripts. -/
def binding (className : String) (method : Method) : String :=
  let signature := bindingSignature method.scriptName method.params
  let target := s!"&{className}::{method.ident}"
  if method.isStatic then
    s!"ClassDB::bind_static_method(get_class_static(), {signature}, {target});"
  else s!"ClassDB::bind_method({signature}, {target});"

end Method

/-- The binding of a constant to its name for scripts. -/
def constantBinding (enumName : String) (enumerator : Enumerator) : String :=
  let value := toString enumerator.value
  s!"ClassDB::bind_integer_constant(get_class_static(), \"{enumName}\", " ++
    s!"\"{enumerator.name}\", {value});"

/-- What happens when a wrapper goes away. -/
def destructorBody : List Stmt :=
  [.guard .handleOwned [.expr .destroy]]

namespace Class

/-- Name of the header of a wrapper. -/
def headerName (className : String) : String :=
  s!"{className}.hpp"

/-- Name of the source file of a wrapper. -/
def sourceName (className : String) : String :=
  s!"{className}.cpp"

/-- The calls that write a header. -/
def headerCalls (wrapper : Class) (utilsName : String) : List Call :=
  let name := wrapper.name
  let declarations := wrapper.methods.map fun method => Call.line method.declaration
  let gap := if wrapper.methods.isEmpty then [] else [.newline]
  [.line "#pragma once", .line s!"#include \"{utilsName}\"", .newline,
    .openBlock s!"class {name} : public {wrapper.base}",
    .line s!"GDCLASS({name}, {wrapper.base})", .newline, .flushLine "public:",
    .line s!"{name}();", .line s!"~{name}() override;", .newline,
    .line s!"// Handle to a native {wrapper.native} (opaque).",
    .line "void *native = nullptr;", .line "bool owned = false;", .newline] ++
    declarations ++ gap ++
    [.line "void destroy();", .newline, .flushLine "protected:",
      .line "static void _bind_methods();", .closeBlock "\x7d;"]

/-- The text of a header. -/
def header (wrapper : Class) (utilsName : String) : String :=
  written (wrapper.headerCalls utilsName)

/-- The calls that write the function that binds all others to names for scripts. -/
def bindingCalls (wrapper : Class) : List Call :=
  let functions := wrapper.methods.map fun method => Call.line (method.binding wrapper.name)
  let constants := wrapper.enums.flatMap fun nested =>
    nested.enumerators.map fun enumerator => Call.line (constantBinding nested.name enumerator)
  [.openBlock s!"void {wrapper.name}::_bind_methods()"] ++ functions ++
    [.line s!"ClassDB::bind_method(D_METHOD(\"destroy\"), &{wrapper.name}::destroy);"] ++
    constants ++ [.closeBlock "\x7d"]

/-- The calls that write a source file. -/
def sourceCalls (wrapper : Class) (includes : List String) : List Call :=
  let name := wrapper.name
  let own := headerName name
  let includeLines := includes.map fun file => Call.line s!"#include \"{file}\""
  let includeBlock := if includes.isEmpty then [] else includeLines ++ [.newline]
  let definitions := wrapper.methods.flatMap fun method => .newline :: method.definitionCalls name
  [.line s!"#include \"{own}\"", .newline] ++ includeBlock ++
    [.line "using namespace godot;", .newline] ++ wrapper.bindingCalls ++
    [.newline, .line (s!"{name}::{name}() " ++ "\x7b\x7d"), .newline,
      .openBlock s!"{name}::~{name}()"] ++ bodyCalls destructorBody ++ [.closeBlock "\x7d"] ++
    definitions ++
    [.newline, .openBlock s!"void {name}::destroy()"] ++ bodyCalls wrapper.destroy ++
    [.closeBlock "\x7d"]

/-- The text of a source file. -/
def source (wrapper : Class) (includes : List String) : String :=
  written (wrapper.sourceCalls includes)

end Class

end Wrapper
end HeaderBinding
