import HeaderBinding.Wrapper.Text

/-!
# Files shared by all wrappers

The header with helpers that every wrapper includes, and the two files that make the wrapper classes
known to the host.
-/

namespace HeaderBinding
namespace Wrapper
namespace Shared

open Writer (Call written)

/-- Name of the header with helpers. -/
def utilsName (family : String) : String :=
  s!"{family}_utils.h"

/-- Name of the header of the registration. -/
def registerHeaderName (family : String) : String :=
  s!"{family}_register.h"

/-- Name of the source file of the registration. -/
def registerSourceName (family : String) : String :=
  s!"{family}_register.cpp"

/-- The function that the host looks for when it loads the library. -/
def entrySymbol (family : String) : String :=
  s!"{family}_gd_library_init_bindings"

/-- Headers of the host and of the standard library that wrappers need. -/
def utilsIncludes : List String :=
  ["<gdextension_interface.h>", "<godot_cpp/core/class_db.hpp>", "<godot_cpp/core/defs.hpp>",
    "<godot_cpp/godot.hpp>", "<godot_cpp/variant/variant.hpp>", "<string>", "<type_traits>",
    "<utility>"]

/-- The calls that write the header with helpers. -/
def utilsCalls (family : String) : List Call :=
  let name := utilsName family
  [.line s!"// {name} - generated helpers for Godot GDExtension wrappers", .line "#pragma once",
    .newline] ++
    (utilsIncludes.map fun file => Call.line s!"#include {file}") ++
    [.newline, .line "using namespace godot;", .newline,
      .openBlock s!"inline String {family}_string_to_godot(const std::string &s)",
      .line "return String::utf8(s.c_str());",
      .closeBlock "\x7d", .newline,
      .openBlock s!"inline std::string {family}_string_from_godot(const String &s)",
      .line "return std::string(s.utf8().get_data());",
      .closeBlock "\x7d"]

/-- The text of the header with helpers. -/
def utils (family : String) : String :=
  written (utilsCalls family)

/-- The calls that write the header of the registration. -/
def registerHeaderCalls (family : String) : List Call :=
  let utils := utilsName family
  let entry := entrySymbol family
  [.line "#pragma once", .line s!"#include \"{utils}\"", .newline,
    .line s!"void {family}_initialize_types(ModuleInitializationLevel p_level);",
    .line s!"void {family}_uninitialize_types(ModuleInitializationLevel p_level);", .newline,
    .openBlock "extern \"C\"",
    .line
      (s!"GDExtensionBool GDE_EXPORT {entry}(GDExtensionInterfaceGetProcAddress " ++
        "p_get_proc_address,"),
    .line "        GDExtensionClassLibraryPtr p_library,",
    .line "        GDExtensionInitialization *r_initialization);",
    .closeBlock "\x7d"]

/-- The text of the header of the registration. -/
def registerHeader (family : String) : String :=
  written (registerHeaderCalls family)

/-- The calls that write the source file of the registration. -/
def registerSourceCalls (family : String) (classNames : List String) : List Call :=
  let own := registerHeaderName family
  let entry := entrySymbol family
  let includes := classNames.map fun name =>
    let file := Class.headerName name
    Call.line s!"#include \"{file}\""
  let gap := if classNames.isEmpty then [] else [.newline]
  let registrations := classNames.map fun name => Call.line s!"GDREGISTER_CLASS({name});"
  [.line s!"#include \"{own}\"", .newline] ++ includes ++ gap ++
    [.line "using namespace godot;", .newline,
      .openBlock s!"void {family}_initialize_types(ModuleInitializationLevel p_level)",
      .openBlock "if (p_level != MODULE_INITIALIZATION_LEVEL_SCENE)",
      .line "return;",
      .closeBlock "\x7d"] ++
    registrations ++
    [.closeBlock "\x7d", .newline,
      .openBlock s!"void {family}_uninitialize_types(ModuleInitializationLevel p_level)",
      .line "(void)p_level;",
      .closeBlock "\x7d", .newline,
      .openBlock "extern \"C\"",
      .openBlock
        (s!"GDExtensionBool GDE_EXPORT {entry}(GDExtensionInterfaceGetProcAddress " ++
          "p_get_proc_address, GDExtensionClassLibraryPtr p_library, " ++
          "GDExtensionInitialization *r_initialization)"),
      .line ("GDExtensionBinding::InitObject init_obj(p_get_proc_address, p_library, " ++
        "r_initialization);"),
      .line s!"init_obj.register_initializer({family}_initialize_types);",
      .line s!"init_obj.register_terminator({family}_uninitialize_types);",
      .line ("init_obj.set_minimum_library_initialization_level(" ++
        "MODULE_INITIALIZATION_LEVEL_SCENE);"),
      .newline, .line "return init_obj.init();",
      .closeBlock "\x7d", .closeBlock "\x7d"]

/-- The text of the source file of the registration. -/
def registerSource (family : String) (classNames : List String) : String :=
  written (registerSourceCalls family classNames)

end Shared
end Wrapper
end HeaderBinding
