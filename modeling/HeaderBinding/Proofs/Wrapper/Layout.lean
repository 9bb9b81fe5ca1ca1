import HeaderBinding.Proofs.Layout.Call
import HeaderBinding.Wrapper.Shared

/-!
# Layout of generated files

Each list of calls that writes generated code is the list for a layout: the calls of the writer open
and close exactly the blocks that the layout has, with the same lines in them. The layout of a file
is what proofs about its lines and blocks read.
-/

namespace HeaderBinding
namespace Wrapper

open Layout
open Writer (Call)

/-! ## Statements -/

mutual

/-- The layout of a statement. -/
def Stmt.layout : Stmt → Layout
  | .comment text => .line s!"// {text}"
  | .todo text => .line s!"// TODO: {text}"
  | .declare type name => .line (s!"{type} {name}" ++ "\x7b\x7d;")
  | .expr value => .line (value.code ++ ";")
  | .bind name value => .line (s!"auto {name} = " ++ value.code ++ ";")
  | .ret none => .line "return;"
  | .ret (some value) => .line ("return " ++ value.code ++ ";")
  | .report message => .line ("ERR_PRINT(\"" ++ escaped message ++ "\");")
  | .guard condition body => .block ("if (" ++ condition.code ++ ")") (layoutAll body) "\x7d"

/-- The layout of statements. -/
def layoutAll : List Stmt → List Layout
  | [] => []
  | stmt :: rest => stmt.layout :: layoutAll rest

end

mutual

theorem Stmt.calls_eq : (stmt : Stmt) → stmt.calls = stmt.layout.calls
  | .comment _ | .todo _ | .declare _ _ | .expr _ | .bind _ _ | .ret none | .ret (some _)
  | .report _ => by
      rw [Stmt.calls, Stmt.layout, Layout.calls]
  | .guard condition body => by
      rw [Stmt.calls, Stmt.layout, Layout.calls, bodyCalls_eq body]
      rfl

theorem bodyCalls_eq : (body : List Stmt) → bodyCalls body = callsOf (layoutAll body)
  | [] => by rw [bodyCalls, layoutAll, callsOf]
  | stmt :: rest => by rw [bodyCalls, layoutAll, callsOf, Stmt.calls_eq stmt, bodyCalls_eq rest]

end

/-- The calls for statements in a block. -/
theorem callsOf_block_layoutAll (head : String) (body : List Stmt) (tail : String) :
    Layout.calls (.block head (layoutAll body) tail) =
      [.openBlock head] ++ bodyCalls body ++ [.closeBlock tail] := by
  rw [Layout.calls, bodyCalls_eq]
  rfl

/-! ## Wrapper classes -/

/-- The definition of a function. -/
def Method.definition (className : String) (method : Method) : Layout :=
  .block (method.definitionHead className) (layoutAll method.body) "\x7d"

theorem Method.definitionCalls_eq (className : String) (method : Method) :
    method.definitionCalls className = (method.definition className).calls := by
  rw [definitionCalls, definition, callsOf_block_layoutAll]

namespace Class

/-- The layout of a header. -/
def headerLayout (wrapper : Class) (utilsName : String) : List Layout :=
  let name := wrapper.name
  [.line "#pragma once", .line s!"#include \"{utilsName}\"", .blank,
    .block s!"class {name} : public {wrapper.base}"
      ([.line s!"GDCLASS({name}, {wrapper.base})", .blank, .flushLine "public:",
          .line s!"{name}();", .line s!"~{name}() override;", .blank,
          .line s!"// Handle to a native {wrapper.native} (opaque).",
          .line "void *native = nullptr;", .line "bool owned = false;", .blank] ++
        paragraph (wrapper.methods.map fun method => .line method.declaration) ++
        [.line "void destroy();", .blank, .flushLine "protected:",
          .line "static void _bind_methods();"])
      "\x7d;"]

theorem headerCalls_eq (wrapper : Class) (utilsName : String) :
    wrapper.headerCalls utilsName = callsOf (wrapper.headerLayout utilsName) := by
  simp [headerCalls, headerLayout, callsOf, Layout.calls, callsOf_append, callsOf_paragraph]

/-- The bindings of constants. -/
def constantLayout (wrapper : Class) : List Layout :=
  wrapper.enums.flatMap fun nested =>
    nested.enumerators.map fun enumerator => .line (constantBinding nested.name enumerator)

theorem callsOf_constantLayout (wrapper : Class) :
    callsOf wrapper.constantLayout = wrapper.enums.flatMap fun nested =>
      nested.enumerators.map fun enumerator => .line (constantBinding nested.name enumerator) := by
  simp only [constantLayout, callsOf_flatMap, callsOf_map_line]

/-- The function that binds all others to names for scripts. -/
def bindings (wrapper : Class) : Layout :=
  .block s!"void {wrapper.name}::_bind_methods()"
    ((wrapper.methods.map fun method => Layout.line (method.binding wrapper.name)) ++
      .line s!"ClassDB::bind_method(D_METHOD(\"destroy\"), &{wrapper.name}::destroy);" ::
      wrapper.constantLayout)
    "\x7d"

theorem bindingCalls_eq (wrapper : Class) : wrapper.bindingCalls = wrapper.bindings.calls := by
  simp [bindingCalls, bindings, callsOf, Layout.calls, callsOf_append, callsOf_map_line,
    callsOf_constantLayout]

/-- The layout of a source file. -/
def sourceLayout (wrapper : Class) (includes : List String) : List Layout :=
  let name := wrapper.name
  let own := headerName name
  [.line s!"#include \"{own}\"", .blank] ++
    paragraph (includes.map fun file => .line s!"#include \"{file}\"") ++
    [.line "using namespace godot;", .blank, wrapper.bindings, .blank,
      .line (s!"{name}::{name}() " ++ "\x7b\x7d"), .blank,
      .block s!"{name}::~{name}()" (layoutAll destructorBody) "\x7d"] ++
    (wrapper.methods.flatMap fun method => [.blank, method.definition name]) ++
    [.blank, .block s!"void {name}::destroy()" (layoutAll wrapper.destroy) "\x7d"]

theorem callsOf_definitions (className : String) (methods : List Method) :
    callsOf (methods.flatMap fun method => [.blank, method.definition className]) =
      methods.flatMap fun method => .newline :: method.definitionCalls className := by
  simp [callsOf_flatMap, callsOf, Layout.calls, Method.definitionCalls_eq]

theorem sourceCalls_eq (wrapper : Class) (includes : List String) :
    wrapper.sourceCalls includes = callsOf (wrapper.sourceLayout includes) := by
  have block := callsOf_block_layoutAll
  simp only [sourceLayout, callsOf_append, callsOf_paragraph, callsOf_definitions, callsOf, block]
  cases includes <;> simp [sourceCalls, Layout.calls, bindingCalls_eq]

/-- The text of a header is that of its layout. -/
theorem header_eq (wrapper : Class) (utilsName : String) :
    wrapper.header utilsName = render (wrapper.headerLayout utilsName) := by
  rw [header, headerCalls_eq, written_callsOf]

/-- The text of a source file is that of its layout. -/
theorem source_eq (wrapper : Class) (includes : List String) :
    wrapper.source includes = render (wrapper.sourceLayout includes) := by
  rw [source, sourceCalls_eq, written_callsOf]

end Class

/-! ## Shared files -/

namespace Shared

/-- The layout of the header with helpers. -/
def utilsLayout (family : String) : List Layout :=
  let name := utilsName family
  [.line s!"// {name} - generated helpers for Godot GDExtension wrappers", .line "#pragma once",
    .blank] ++
    (utilsIncludes.map fun file => .line s!"#include {file}") ++
    [.blank, .line "using namespace godot;", .blank,
      .block s!"inline String {family}_string_to_godot(const std::string &s)"
        [.line "return String::utf8(s.c_str());"] "\x7d",
      .blank,
      .block s!"inline std::string {family}_string_from_godot(const String &s)"
        [.line "return std::string(s.utf8().get_data());"] "\x7d"]

theorem utilsCalls_eq (family : String) : utilsCalls family = callsOf (utilsLayout family) := by
  simp [utilsCalls, utilsLayout, callsOf, Layout.calls, callsOf_append, callsOf_map_line]

/-- The layout of the header of the registration. -/
def registerHeaderLayout (family : String) : List Layout :=
  let utils := utilsName family
  let entry := entrySymbol family
  [.line "#pragma once", .line s!"#include \"{utils}\"", .blank,
    .line s!"void {family}_initialize_types(ModuleInitializationLevel p_level);",
    .line s!"void {family}_uninitialize_types(ModuleInitializationLevel p_level);", .blank,
    .block "extern \"C\""
      [.line
          (s!"GDExtensionBool GDE_EXPORT {entry}(GDExtensionInterfaceGetProcAddress " ++
            "p_get_proc_address,"),
        .line "        GDExtensionClassLibraryPtr p_library,",
        .line "        GDExtensionInitialization *r_initialization);"]
      "\x7d"]

theorem registerHeaderCalls_eq (family : String) :
    registerHeaderCalls family = callsOf (registerHeaderLayout family) := by
  simp [registerHeaderCalls, registerHeaderLayout, callsOf, Layout.calls]

/-- The layout of the source file of the registration. -/
def registerSourceLayout (family : String) (classNames : List String) : List Layout :=
  let own := registerHeaderName family
  let entry := entrySymbol family
  [.line s!"#include \"{own}\"", .blank] ++
    paragraph (classNames.map fun name => .line (s!"#include \"{Class.headerName name}\"")) ++
    [.line "using namespace godot;", .blank,
      .block s!"void {family}_initialize_types(ModuleInitializationLevel p_level)"
        (.block "if (p_level != MODULE_INITIALIZATION_LEVEL_SCENE)" [.line "return;"] "\x7d" ::
          classNames.map fun name => .line s!"GDREGISTER_CLASS({name});")
        "\x7d",
      .blank,
      .block s!"void {family}_uninitialize_types(ModuleInitializationLevel p_level)"
        [.line "(void)p_level;"] "\x7d",
      .blank,
      .block "extern \"C\""
        [.block
          (s!"GDExtensionBool GDE_EXPORT {entry}(GDExtensionInterfaceGetProcAddress " ++
            "p_get_proc_address, GDExtensionClassLibraryPtr p_library, " ++
            "GDExtensionInitialization *r_initialization)")
          [.line ("GDExtensionBinding::InitObject init_obj(p_get_proc_address, p_library, " ++
              "r_initialization);"),
            .line s!"init_obj.register_initializer({family}_initialize_types);",
            .line s!"init_obj.register_terminator({family}_uninitialize_types);",
            .line ("init_obj.set_minimum_library_initialization_level(" ++
              "MODULE_INITIALIZATION_LEVEL_SCENE);"),
            .blank, .line "return init_obj.init();"]
          "\x7d"]
        "\x7d"]

theorem registerSourceCalls_eq (family : String) (classNames : List String) :
    registerSourceCalls family classNames = callsOf (registerSourceLayout family classNames) := by
  simp [registerSourceCalls, registerSourceLayout, callsOf, Layout.calls, callsOf_append,
    callsOf_paragraph, callsOf_map_line]

theorem registerSource_eq (family : String) (classNames : List String) :
    registerSource family classNames = render (registerSourceLayout family classNames) := by
  rw [registerSource, registerSourceCalls_eq, written_callsOf]

end Shared

end Wrapper
end HeaderBinding
