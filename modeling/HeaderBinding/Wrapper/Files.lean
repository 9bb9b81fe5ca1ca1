import HeaderBinding.Wrapper.OfClass
import HeaderBinding.Wrapper.Shared

/-!
# Generated files

All files that are generated for a set of classes: the shared ones, then a header and a source file
for each class in the order of the flat identifiers.
-/

namespace HeaderBinding

/-- A generated file. -/
structure GeneratedFile where
  /-- Name in the folder of generated files. -/
  name : String
  contents : String
  deriving DecidableEq, Repr, Inhabited

/-- How files are generated. -/
structure EmitOptions where
  /-- What the names of all generated files and classes begin with. -/
  family : String := "ocgd"
  /-- Class of the host that all wrappers derive from. -/
  base : String := "Object"
  /-- Files that every source file of a class includes. -/
  includes : List String := []
  deriving DecidableEq, Repr, Inhabited

namespace Wrapper

/-- The two files of a wrapper class. -/
def Class.files (options : EmitOptions) (wrapper : Class) : List GeneratedFile :=
  [⟨Class.headerName wrapper.name, wrapper.header (Shared.utilsName options.family)⟩,
    ⟨Class.sourceName wrapper.name, wrapper.source options.includes⟩]

/-- The files that are shared by wrapper classes. -/
def sharedFiles (options : EmitOptions) (wrappers : List Class) : List GeneratedFile :=
  let family := options.family
  [⟨Shared.utilsName family, Shared.utils family⟩,
    ⟨Shared.registerHeaderName family, Shared.registerHeader family⟩,
    ⟨Shared.registerSourceName family, Shared.registerSource family (wrappers.map Class.name)⟩]

/-- The wrapper classes of all classes. -/
def ofApi (scope : TypeScope) (options : EmitOptions) (api : Api) : List Class :=
  api.classes.map (ofClass scope options.family options.base)

/-- All files that are generated for a set of classes. -/
def emit (scope : TypeScope) (options : EmitOptions) (api : Api) : List GeneratedFile :=
  let wrappers := ofApi scope options api
  sharedFiles options wrappers ++ wrappers.flatMap (Class.files options)

end Wrapper
end HeaderBinding
