import HeaderBinding.Decl.Node
import HeaderBinding.Json.Value

/-!
# Nodes of a syntax tree

The syntax tree that clang writes as JSON, reduced to the members that declarations are made from.
The files named in the locations of a node are kept in the order in which they were written: a file
is named only where it differs from the one named before.
-/

namespace HeaderBinding
namespace Clang

open Json

mutual

/-- The files named in a location: where the text was written, where it was expanded, and the
location's own file. -/
def locationFiles : Value → List String
  | .object members =>
      memberFiles "spellingLoc" members ++ memberFiles "expansionLoc" members ++
        ((Value.object members).textField? "file").toList
  | _ => []

/-- The files named in the location that is the member with the given key. -/
def memberFiles (key : String) : List (String × Value) → List String
  | [] => []
  | (name, value) :: rest =>
      if name = key ∧ (lastMember? key rest).isNone then locationFiles value
      else memberFiles key rest

end

/-- The files named in the member with the given key, if it is a location. -/
def filesOf (value : Value) (key : String) : List String :=
  match value.field? key with
  | some location => locationFiles location
  | none => []

/-- The type of a declaration as written and without aliases. -/
structure TypeSpelling where
  written? : Option String
  canonical? : Option String
  deriving DecidableEq, Repr, Inhabited

/-- The type under a node, if both it and its spelling are there. -/
def TypeSpelling.ref? (type : TypeSpelling) : Option TypeRef :=
  type.written?.map fun written =>
    match type.canonical? with
    | some canonical => .withCanonical written canonical
    | none => .plain written

/-- The members of a node. -/
structure Fields where
  kind : String
  name : String
  /-- Mark by which other nodes refer to the node. -/
  id? : Option String
  /-- The declaration was written outside of the scope it belongs to. -/
  isOutOfLine : Bool
  /-- Mark of the scope that the declaration belongs to. -/
  scopeMark? : Option String
  isImplicit : Bool
  access? : Option Decl.Access
  type : TypeSpelling
  /-- The word that declares a record. -/
  tag : String
  isComplete : Bool
  isAbstract : Bool
  isStatic : Bool
  isDeleted : Bool
  /-- Value of a constant expression. -/
  value? : Option String
  /-- Files named in the location of the node. -/
  files : List String
  /-- Files named in the range of the node. -/
  rangeFiles : List String
  deriving DecidableEq, Repr, Inhabited

/-- The access that a word grants. -/
def accessOf? : String → Option Decl.Access
  | "public" => some .isPublic
  | "protected" => some .isProtected
  | "private" => some .isPrivate
  | _ => none

/-- The member of an optional value. -/
def under (value? : Option Value) (key : String) : Option Value :=
  value?.bind (·.field? key)

/-- The members of a node as written in JSON. -/
def Fields.ofValue (value : Value) : Fields where
  kind := (value.textField? "kind").getD ""
  name := (value.textField? "name").getD ""
  id? := value.textField? "id"
  isOutOfLine := (value.field? "parentDeclContextId").isSome
  scopeMark? := value.textField? "parentDeclContextId"
  isImplicit := value.flag "isImplicit"
  access? := (value.textField? "access").bind accessOf?
  type :=
    let type? := value.field? "type"
    ⟨(under type? "qualType").bind Value.text?,
      (under type? "desugaredQualType").bind Value.text?⟩
  tag := (value.textField? "tagUsed").getD "struct"
  isComplete := value.flag "completeDefinition"
  isAbstract := ((value.field? "definitionData").map (·.flag "isAbstract")).getD false
  isStatic := value.textField? "storageClass" = some "static"
  isDeleted := value.flag "explicitlyDeleted"
  value? := value.textField? "value"
  files := filesOf value "loc"
  rangeFiles :=
    match value.field? "range" with
    | some range => filesOf range "begin" ++ filesOf range "end"
    | none => []

/-- A node of the syntax tree. -/
inductive Node where
  | mk (fields : Fields) (inner : List Node)
  deriving Inhabited

/-- The members of a node. -/
def Node.fields : Node → Fields
  | ⟨fields, _⟩ => fields

/-- The nodes under a node. -/
def Node.inner : Node → List Node
  | ⟨_, inner⟩ => inner

mutual

/-- The node that a value writes. Every value is a node, if only one without members. -/
def Node.ofValue : Value → Node
  | .object members => ⟨Fields.ofValue (.object members), innerOf members⟩
  | value => ⟨Fields.ofValue value, []⟩

/-- The nodes under a node with the given members. -/
def innerOf : List (String × Value) → List Node
  | [] => []
  | (name, value) :: rest =>
      if name = "inner" ∧ (lastMember? "inner" rest).isNone then itemsOf value else innerOf rest

/-- The nodes of an array. -/
def itemsOf : Value → List Node
  | .array items => ofValues items
  | _ => []

/-- The nodes that values write. -/
def ofValues : List Value → List Node
  | [] => []
  | value :: rest => Node.ofValue value :: ofValues rest

end

end Clang
end HeaderBinding
