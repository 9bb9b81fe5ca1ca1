import HeaderBinding.Clang.FunctionType
import HeaderBinding.Clang.Node
import HeaderBinding.Decl.Tree
import HeaderBinding.NameMap
import HeaderBinding.Path.Basic
import HeaderBinding.Text.Decimal
import HeaderBinding.Text.Quoted

/-!
# Declarations of a syntax tree

The declarations of a header, made from the syntax tree that clang writes for it. Scopes, aliases,
records, enums and member functions are kept; all other nodes are only followed for the files that
their locations name. A declaration that was read while another file than the header was the
current one is marked as included.
-/

namespace HeaderBinding
namespace Clang

open Decl (Access Kind Flags NodeId Tree)

/-- A document that is no syntax tree of a header. -/
inductive TreeError where
  | unexpectedRoot (kind : String)
  deriving DecidableEq, Repr

/-- The wording of an error. -/
def TreeError.message : TreeError → String
  | unexpectedRoot kind =>
      "expected a TranslationUnitDecl at the root, found " ++ Text.quoted kind

mutual

/-- The files named in a node and the nodes under it, in the order of the document. -/
def Node.allFiles : Node → List String
  | ⟨fields, inner⟩ => fields.files ++ fields.rangeFiles ++ filesUnder inner

/-- The files named in nodes and the nodes under them, in the order of the document. -/
def filesUnder : List Node → List String
  | [] => []
  | node :: rest => node.allFiles ++ filesUnder rest

end

/-- The first value of a constant expression in nodes or under them. A constant expression whose
value is no integer in range is passed over. -/
def constantUnder? : List Node → Option Int
  | [] => none
  | ⟨fields, inner⟩ :: rest =>
      let own := if fields.kind = "ConstantExpr" then fields.value? else none
      (own.elim (constantUnder? inner) Text.readInt64?).or (constantUnder? rest)

/-- What has been read of a syntax tree. -/
structure State where
  tree : Tree
  /-- The file named last. -/
  file? : Option String := none
  /-- Declarations that out-of-line ones may belong to, by their marks. -/
  scopes : NameMap NodeId := ∅

namespace State

/-- Go on after files were named. -/
def follow (state : State) (files : List String) : State :=
  { state with file? := files.getLast?.or state.file? }

/-- Pass over nodes. -/
def skip (state : State) (nodes : List Node) : State :=
  state.follow (filesUnder nodes)

/-- The current file is another one than the header. -/
def isIncluded (state : State) (mainFile : String) : Bool :=
  state.file?.any fun file => !Path.same file mainFile

/-- Take a declaration in; its number is the size of the tree before. -/
def push (state : State) (parent : NodeId) (node : Decl.Node) : State :=
  { state with tree := state.tree.push parent node }

/-- Let the mark of a node stand for a declaration. -/
def mark (state : State) (fields : Fields) (id : NodeId) : State :=
  match fields.id? with
  | some key => { state with scopes := state.scopes.insert key id }
  | none => state

/-- Let a declaration belong to the scope that its node names, if that has been read. -/
def relink (state : State) (fields : Fields) (id : NodeId) : State :=
  match fields.scopeMark?.bind (state.scopes[·]?) with
  | some scope => { state with tree := state.tree.setScope id scope }
  | none => state

end State

/-- A node that is being read: where its declaration goes and what is known about it. -/
structure Site where
  parent : NodeId
  access : Access
  included : Bool

/-- The declaration of an alias. -/
def aliasNode (site : Site) (kind : Kind) (fields : Fields) : Decl.Node :=
  { kind, name := fields.name, type? := fields.type.ref?, access := site.access
    flags := { included := site.included } }

/-- The declaration of a record. -/
def recordNode (site : Site) (kind? : Option Kind) (fields : Fields) : Decl.Node :=
  { kind := kind?.getD (if fields.tag = "class" then .classType else .struct)
    name := fields.name
    access := site.access
    flags :=
      { included := site.included
        definition := fields.isComplete
        isAbstract := fields.isAbstract } }

/-- Take a record in and let its mark stand for it. -/
def openRecord (state : State) (site : Site) (kind? : Option Kind) (fields : Fields) : State :=
  let id := state.tree.size
  ((state.push site.parent (recordNode site kind? fields)).mark fields id).relink fields id

/-- Access to the members of a record that do not say otherwise. -/
def memberAccess (fields : Fields) : Access :=
  if fields.tag = "class" then .isPrivate else .isPublic

/-- Take the constants of an enum in; `next` is the value of a constant that has none of its own.
A constant with nothing under it has none of its own. -/
def readConstants (enum : NodeId) (next : Option Int) (state : State) : List Node → State
  | [] => state
  | ⟨fields, inner⟩ :: rest =>
      let state := state.follow (fields.files ++ fields.rangeFiles)
      if fields.kind = "EnumConstantDecl" then
        let value? := if inner.isEmpty then next else constantUnder? inner
        let constant : Decl.Node := { kind := .enumConstant, name := fields.name, value? }
        let after := (value?.map (· + 1)).filter Text.fitsInt64
        readConstants enum after ((state.push enum constant).skip inner) rest
      else readConstants enum next (state.skip inner) rest

/-- Take an enum in, with its constants. -/
def readEnum (state : State) (site : Site) (fields : Fields) (inner : List Node) : State :=
  let node : Decl.Node :=
    { kind := .enum, name := fields.name, access := site.access
      flags := { included := site.included } }
  readConstants state.tree.size (some 0) (state.push site.parent node) inner

/-- The parameters of a function, which are those of the nodes under it that have a type. -/
def paramsOf (inner : List Node) : List Decl.Param :=
  inner.filterMap fun node =>
    if node.fields.kind = "ParmVarDecl" then
      node.fields.type.ref?.map fun type => ⟨node.fields.name, type⟩
    else none

/-- The result type of a method. -/
def resultOf? (type : TypeSpelling) : Option TypeRef :=
  (type.written?.bind FunctionType.ofSpelling?).map fun written =>
    match type.canonical?.bind FunctionType.ofSpelling? with
    | some canonical => .withCanonical written.result canonical.result
    | none => .plain written.result

/-- The declaration of a member function. -/
def functionNode (site : Site) (kind : Kind) (fields : Fields) (inner : List Node) : Decl.Node :=
  let isConst := (fields.type.written?.bind FunctionType.ofSpelling?).any FunctionType.isConst
  { kind
    name := fields.name
    type? := if kind = .method then resultOf? fields.type else none
    params := paramsOf inner
    access := site.access
    flags :=
      { included := site.included, isStatic := fields.isStatic, deleted := fields.isDeleted
        isConst } }

/-- Take a member function in. A definition outside of the class repeats a declaration inside it
and is passed over. -/
def readFunction (state : State) (site : Site) (kind : Kind) (fields : Fields)
    (inner : List Node) : State :=
  let state := if fields.isOutOfLine then state
    else state.push site.parent (functionNode site kind fields inner)
  state.skip inner

mutual

/-- Take the declarations in that nodes under `parent` write. `access` is what members have that do
not say otherwise; it changes at every node that sets it. -/
def readAll (mainFile : String) (parent : NodeId) (access : Access) (state : State) :
    List Node → State
  | [] => state
  | ⟨fields, inner⟩ :: rest =>
      let located := state.follow fields.files
      let included := located.isIncluded mainFile
      let state := located.follow fields.rangeFiles
      let own := fields.access?.getD access
      let site : Site := ⟨parent, own, included⟩
      if fields.kind = "AccessSpecDecl" then readAll mainFile parent own (state.skip inner) rest
      else
        let after :=
          if fields.isImplicit then state.skip inner
          else
            match fields.kind with
            | "NamespaceDecl" =>
                let id := state.tree.size
                let node : Decl.Node :=
                  { kind := .namespaceScope, name := fields.name, flags := { included } }
                readAll mainFile id .unspecified ((state.push parent node).mark fields id) inner
            | "LinkageSpecDecl" | "ExportDecl" => readAll mainFile parent access state inner
            | "TypedefDecl" => (state.push parent (aliasNode site .typedef fields)).skip inner
            | "TypeAliasDecl" => (state.push parent (aliasNode site .typeAlias fields)).skip inner
            | "CXXRecordDecl" =>
                if fields.tag = "union" then state.skip inner
                else
                  readAll mainFile state.tree.size (memberAccess fields)
                    (openRecord state site none fields) inner
            | "ClassTemplateDecl" => readTemplate mainFile site fields state inner
            | "EnumDecl" => readEnum state site fields inner
            | "CXXMethodDecl" => readFunction state site .method fields inner
            | "CXXConstructorDecl" => readFunction state site .creator fields inner
            | _ => state.skip inner
        readAll mainFile parent access after rest

/-- Take a class template in, whose node is `template`. Its members are those of the first record
under it, after which its mark stands for that record; the other nodes are passed over. -/
def readTemplate (mainFile : String) (site : Site) (template : Fields) (state : State) :
    List Node → State
  | [] => state
  | ⟨fields, inner⟩ :: rest =>
      let state := state.follow (fields.files ++ fields.rangeFiles)
      if fields.kind = "CXXRecordDecl" then
        let after :=
          if fields.tag = "union" then state.skip inner
          else
            let id := state.tree.size
            (readAll mainFile id (memberAccess fields)
              (openRecord state site (some .classTemplate) fields) inner).mark template id
        after.skip rest
      else readTemplate mainFile site template (state.skip inner) rest

end

/-- The declarations of a header from the root of its syntax tree. -/
def treeOfNode (root : Node) (mainFile : String) : Except TreeError Tree :=
  if root.fields.kind ≠ "TranslationUnitDecl" then .error (.unexpectedRoot root.fields.kind)
  else
    let start : State := { tree := .empty }
    let start := start.follow (root.fields.files ++ root.fields.rangeFiles)
    let start := start.mark root.fields Tree.root
    .ok (readAll mainFile Tree.root .unspecified start root.inner).tree

/-- The declarations of a header from its syntax tree as JSON. -/
def treeOf (document : Json.Value) (mainFile : String) : Except TreeError Tree :=
  treeOfNode (Node.ofValue document) mainFile

end Clang
end HeaderBinding
