import HeaderBinding.Json.Reader
import HeaderBinding.Override.Table

/-!
# Mapping documents

Mappings are written as a JSON object from spellings to mappings. A mapping is the name of the
wrapper's type or an object with up to three texts; anything else is a mapping without a target.
-/

namespace HeaderBinding

/-- Why there are no mappings. -/
inductive MappingError where
  /-- The file cannot be read as text. -/
  | unreadable
  /-- The text is no JSON, or an entry holds something else than texts. -/
  | malformed
  /-- The document is no object. -/
  | notAnObject
  deriving DecidableEq, Repr

/-- The wording of an error that does not depend on the document. -/
def MappingError.message? : MappingError → Option String
  | notAnObject => some "mapping file must contain a JSON object (type -> mapping)"
  | unreadable | malformed => none

namespace Mapping

/-- An optional text of a mapping: missing or null for none. -/
def textOf (value : Json.Value) (key : String) : Except MappingError (Option String) :=
  match value.field? key with
  | none | some .null => .ok none
  | some (.string text) => .ok (some text)
  | some _ => .error .malformed

/-- The mapping that a value writes. -/
def ofValue (value : Json.Value) : Except MappingError Mapping :=
  match value with
  | .string target => .ok (ofTarget target)
  | .object members => do
      let object := Json.Value.object members
      let target? ← textOf object "cpp"
      let toNative? ← textOf object "to_native"
      let fromNative? ← textOf object "from_native"
      return { target?, toNative?, fromNative? }
  | _ => .ok {}

end Mapping

namespace OverrideTable

/-- The value of each key of an object, the last one if a key is repeated. -/
def distinctMembers (members : List (String × Json.Value)) : NameMap Json.Value :=
  members.foldl (fun table member => table.insert member.1 member.2) ∅

/-- The mappings of the members of an object. -/
def ofMembers (members : List (String × Json.Value)) : Except MappingError OverrideTable :=
  (distinctMembers members).toList.foldlM
    (fun table member => do
      let mapping ← Mapping.ofValue member.2
      return table.insert member.1 mapping)
    ∅

/-- The mappings that a text writes. -/
def ofText (text : String) : Except MappingError OverrideTable :=
  match Json.document? text with
  | none => .error .malformed
  | some (.object members) => ofMembers members
  | some _ => .error .notAnObject

/-- The mappings that a file writes, nothing standing for a file that is not there. -/
def ofFile (bytes? : Option ByteArray) : Except MappingError OverrideTable :=
  match bytes?.bind String.fromUTF8? with
  | none => .error .unreadable
  | some text => ofText text

/-- Like `ofFile`, but without mappings if they cannot be read. -/
def ofFileOrEmpty (bytes? : Option ByteArray) : OverrideTable :=
  match ofFile bytes? with
  | .ok table => table
  | .error _ => ∅

end OverrideTable

end HeaderBinding
