import HeaderBinding.NameMap
import HeaderBinding.Path.Basic

/-!
# Names for including headers

A header below a base folder is included by its path from there, any other header by its path as
given.
-/

namespace HeaderBinding
namespace Path

/-- The name under which a header is included. -/
def includeName (base? : Option String) (header : String) : String :=
  let inside? := base?.bind fun base =>
    below? (normalComponents (components base)) (normalComponents (components header))
  (inside?.map render).getD header

/-- The names under which headers are included, in order and each once. -/
def includeNames (base? : Option String) (headers : List String) : List String :=
  (headers.foldl (fun names header => names.insert (includeName base? header) ())
    (∅ : NameMap Unit)).keys

end Path
end HeaderBinding
