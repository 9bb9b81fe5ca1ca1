import HeaderBinding.Proofs.Clang.Document

/-!
# Origins of declarations

Each declaration that is read of a syntax tree comes from a node of the document. Which nodes
declare something depends on the nodes around them: a class template is declared by its own node
and named by the record under it, and constants only count inside an enum.
-/

namespace HeaderBinding
namespace Clang

open Decl (Kind)

/-! ## Which nodes declare something -/

/-- Where in the document a declaration is written, what it is and its name. -/
structure Origin where
  /-- How many nodes come before its node. -/
  place : Nat
  kind : Kind
  name : String
  deriving DecidableEq, Repr

/-- How clang calls the node of a declaration. -/
def nodeKind : Kind → String
  | .unit => "TranslationUnitDecl"
  | .namespaceScope => "NamespaceDecl"
  | .typedef => "TypedefDecl"
  | .typeAlias => "TypeAliasDecl"
  | .struct | .classType => "CXXRecordDecl"
  | .classTemplate => "ClassTemplateDecl"
  | .enum => "EnumDecl"
  | .enumConstant => "EnumConstantDecl"
  | .method => "CXXMethodDecl"
  | .creator => "CXXConstructorDecl"
  | .other => ""

/-- The kind of a record that is not in a template. -/
def recordKind (fields : Fields) : Kind :=
  if fields.tag = "class" then .classType else .struct

/-- A record is of no other kind. -/
theorem recordKind_ne {kind : Kind} (other : kind.isRecord = false) (fields : Fields) :
    recordKind fields ≠ kind := by
  rintro rfl
  revert other
  unfold recordKind
  split <;> nofun

theorem isRecord_recordKind (fields : Fields) : (recordKind fields).isRecord := by
  unfold recordKind
  split <;> rfl

theorem nodeKind_recordKind (fields : Fields) : nodeKind (recordKind fields) = "CXXRecordDecl" := by
  unfold recordKind
  split <;> rfl

/-- The declaration in the node of a member function, unless it repeats one inside a class. -/
def functionOrigins (place : Nat) (kind : Kind) (fields : Fields) : List Origin :=
  if fields.isOutOfLine then [] else [⟨place, kind, fields.name⟩]

/-- The constants of an enum, in nodes of which the first is the one at `start`. -/
def constantsIn (start : Nat) : List Node → List Origin
  | [] => []
  | ⟨fields, inner⟩ :: rest =>
      let later := constantsIn (start + 1 + (preorderAll inner).length) rest
      if fields.kind = "EnumConstantDecl" then ⟨start, .enumConstant, fields.name⟩ :: later
      else later

mutual

/-- The declarations in a node that is the one at `place`. -/
def Node.origins (place : Nat) : Node → List Origin
  | ⟨fields, inner⟩ =>
      if fields.kind = "AccessSpecDecl" ∨ fields.isImplicit then []
      else if fields.kind = "NamespaceDecl" then
        ⟨place, .namespaceScope, fields.name⟩ :: originsIn (place + 1) inner
      else if fields.kind = "LinkageSpecDecl" ∨ fields.kind = "ExportDecl" then
        originsIn (place + 1) inner
      else if fields.kind = "TypedefDecl" then [⟨place, .typedef, fields.name⟩]
      else if fields.kind = "TypeAliasDecl" then [⟨place, .typeAlias, fields.name⟩]
      else if fields.kind = "CXXRecordDecl" then
        if fields.tag = "union" then []
        else ⟨place, recordKind fields, fields.name⟩ :: originsIn (place + 1) inner
      else if fields.kind = "ClassTemplateDecl" then templateOrigins place (place + 1) inner
      else if fields.kind = "EnumDecl" then
        ⟨place, .enum, fields.name⟩ :: constantsIn (place + 1) inner
      else if fields.kind = "CXXMethodDecl" then functionOrigins place .method fields
      else if fields.kind = "CXXConstructorDecl" then
        functionOrigins place .creator fields
      else []

/-- The declarations in nodes of which the first is the one at `start`. -/
def originsIn (start : Nat) : List Node → List Origin
  | [] => []
  | node :: rest => node.origins start ++ originsIn (start + node.preorder.length) rest

/-- The declarations of the class template at `template`, from the nodes under it of which the
first is the one at `start`. -/
def templateOrigins (template start : Nat) : List Node → List Origin
  | [] => []
  | ⟨fields, inner⟩ :: rest =>
      if fields.kind = "CXXRecordDecl" then
        if fields.tag = "union" then []
        else ⟨template, .classTemplate, fields.name⟩ :: originsIn (start + 1) inner
      else templateOrigins template (start + 1 + (preorderAll inner).length) rest

end

attribute [grind =] Node.origins

section

variable {place : Nat} {fields : Fields} {inner : List Node}

/-- The nodes after a node come behind those under it. -/
theorem originsIn_cons (start : Nat) (fields : Fields) (inner rest : List Node) :
    originsIn start (⟨fields, inner⟩ :: rest) = Node.origins start ⟨fields, inner⟩ ++
      originsIn (start + 1 + (preorderAll inner).length) rest := by
  rw [originsIn, Node.preorder, List.length_cons, Nat.add_assoc, Nat.add_comm 1]

theorem origins_of_passed (passed : fields.kind = "AccessSpecDecl" ∨ fields.isImplicit) :
    Node.origins place ⟨fields, inner⟩ = [] := by
  rw [Node.origins, if_pos passed]

theorem origins_namespace (explicit : ¬fields.isImplicit) (kind : fields.kind = "NamespaceDecl") :
    Node.origins place ⟨fields, inner⟩ =
      ⟨place, .namespaceScope, fields.name⟩ :: originsIn (place + 1) inner := by
  simp [Node.origins, kind, explicit]

/-- A node that only stands around others declares nothing itself. -/
theorem origins_around (explicit : ¬fields.isImplicit)
    (kind : fields.kind = "LinkageSpecDecl" ∨ fields.kind = "ExportDecl") :
    Node.origins place ⟨fields, inner⟩ = originsIn (place + 1) inner := by
  rcases kind with kind | kind <;> simp [Node.origins, kind, explicit]

theorem origins_typedef (explicit : ¬fields.isImplicit) (kind : fields.kind = "TypedefDecl") :
    Node.origins place ⟨fields, inner⟩ = [⟨place, .typedef, fields.name⟩] := by
  simp [Node.origins, kind, explicit]

theorem origins_typeAlias (explicit : ¬fields.isImplicit) (kind : fields.kind = "TypeAliasDecl") :
    Node.origins place ⟨fields, inner⟩ = [⟨place, .typeAlias, fields.name⟩] := by
  simp [Node.origins, kind, explicit]

theorem origins_union (explicit : ¬fields.isImplicit) (kind : fields.kind = "CXXRecordDecl")
    (union : fields.tag = "union") : Node.origins place ⟨fields, inner⟩ = [] := by
  simp [Node.origins, kind, explicit, union]

theorem origins_record (explicit : ¬fields.isImplicit) (kind : fields.kind = "CXXRecordDecl")
    (noUnion : ¬fields.tag = "union") : Node.origins place ⟨fields, inner⟩ =
      ⟨place, recordKind fields, fields.name⟩ :: originsIn (place + 1) inner := by
  simp [Node.origins, kind, explicit, noUnion]

theorem origins_template (explicit : ¬fields.isImplicit)
    (kind : fields.kind = "ClassTemplateDecl") :
    Node.origins place ⟨fields, inner⟩ = templateOrigins place (place + 1) inner := by
  simp [Node.origins, kind, explicit]

theorem origins_enum (explicit : ¬fields.isImplicit) (kind : fields.kind = "EnumDecl") :
    Node.origins place ⟨fields, inner⟩ =
      ⟨place, .enum, fields.name⟩ :: constantsIn (place + 1) inner := by
  simp [Node.origins, kind, explicit]

theorem origins_method (explicit : ¬fields.isImplicit) (kind : fields.kind = "CXXMethodDecl") :
    Node.origins place ⟨fields, inner⟩ = functionOrigins place .method fields := by
  simp [Node.origins, kind, explicit]

theorem origins_creator (explicit : ¬fields.isImplicit)
    (kind : fields.kind = "CXXConstructorDecl") :
    Node.origins place ⟨fields, inner⟩ = functionOrigins place .creator fields := by
  simp [Node.origins, kind, explicit]

end

/-- The declarations in a document. -/
def originsOf (document : Json.Value) : List Origin :=
  originsIn 1 (Node.ofValue document).inner

/-- A declaration is made of the node with the given members; the name of a class template is that
of its record. -/
structure Origin.WrittenAs (origin : Origin) (fields : Fields) : Prop where
  kind : fields.kind = nodeKind origin.kind
  name : origin.kind ≠ .classTemplate → fields.name = origin.name

/-- Declarations are written in the order of the document, from `low` to before `high`. -/
structure Ordered (all : List Fields) (low high : Nat) (origins : List Origin) : Prop where
  increasing : origins.Pairwise fun first second => first.place < second.place
  within : ∀ origin ∈ origins, low ≤ origin.place ∧ origin.place < high
  written : ∀ origin ∈ origins, ∃ fields,
    all[origin.place]? = some fields ∧ origin.WrittenAs fields

namespace Ordered

variable {all : List Fields} {low middle high : Nat} {origins later : List Origin}

theorem nil : Ordered all low high [] := by
  constructor <;> simp

theorem singleton {origin : Origin} {fields : Fields} (low_le : low ≤ origin.place)
    (lt_high : origin.place < high) (found : all[origin.place]? = some fields)
    (written : origin.WrittenAs fields) : Ordered all low high [origin] where
  increasing := List.pairwise_singleton _ _
  within := by
    intro other listed
    cases List.mem_singleton.mp listed
    exact ⟨low_le, lt_high⟩
  written := by
    intro other listed
    cases List.mem_singleton.mp listed
    exact ⟨fields, found, written⟩

theorem append (first : Ordered all low middle origins) (second : Ordered all middle high later)
    (low_le : low ≤ middle) (le_high : middle ≤ high) :
    Ordered all low high (origins ++ later) where
  increasing := by
    refine List.pairwise_append.mpr ⟨first.increasing, second.increasing, ?_⟩
    intro origin before other after
    exact Nat.lt_of_lt_of_le (first.within origin before).2 (second.within other after).1
  within := by
    intro origin listed
    rcases List.mem_append.mp listed with before | after
    · exact ⟨(first.within origin before).1,
        Nat.lt_of_lt_of_le (first.within origin before).2 le_high⟩
    · exact ⟨Nat.le_trans low_le (second.within origin after).1, (second.within origin after).2⟩
  written := by
    intro origin listed
    rcases List.mem_append.mp listed with before | after
    · exact first.written origin before
    · exact second.written origin after

theorem weaken {lower higher : Nat} (ordered : Ordered all low high origins)
    (lower_le : lower ≤ low) (le_higher : high ≤ higher) : Ordered all lower higher origins where
  increasing := ordered.increasing
  within origin listed :=
    ⟨Nat.le_trans lower_le (ordered.within origin listed).1,
      Nat.lt_of_lt_of_le (ordered.within origin listed).2 le_higher⟩
  written := ordered.written

end Ordered

end Clang
end HeaderBinding
