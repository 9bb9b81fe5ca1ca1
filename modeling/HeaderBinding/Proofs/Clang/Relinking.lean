import HeaderBinding.Proofs.Clang.Enumeration
import HeaderBinding.Proofs.Clang.Linking
import HeaderBinding.Proofs.Clang.Descent

/-!
# Definitions outside of their scopes

A definition may be written outside of the scope that it belongs to, which its node names by a mark.
The reader moves records to the scopes that they name, but not enums: an enum that is defined
outside of its class is entered under the name of the scope that it is written in. Main statement:
`qualifiedName_relinked_iff`.
-/

namespace HeaderBinding
namespace Clang

open Decl (NodeId Tree)
open Json (Value)

/-- The node with the members of a declaration: that of the record in a class template, its own
otherwise. -/
def bodyOf (value : Value) : Value :=
  if kindOf value = "ClassTemplateDecl" then
    ((innerValues value).find? fun child => kindOf child = "CXXRecordDecl").getD value
  else value

theorem body_ofValue (value : Value) :
    (Node.ofValue value).body = Node.ofValue (bodyOf value) := by
  have kind (value : Value) : (Node.ofValue value).fields.kind = kindOf value := by
    rw [fields_ofValue]
    rfl
  have inner : (Node.ofValue value).inner = (innerValues value).map Node.ofValue := by
    rw [ofValue_eq, Node.inner]
  rw [Node.body, bodyOf, kind, inner, List.find?_map]
  by_cases template : kindOf value = "ClassTemplateDecl"
  · rw [if_pos template, if_pos template]
    simp only [Function.comp_def, kind]
    cases (innerValues value).find? fun child => kindOf child = "CXXRecordDecl" <;> rfl
  · rw [if_neg template, if_neg template]

/-- The record or enum with number `later` names a scope as the one that it belongs to, which has
the number `earlier` and was read before. -/
structure NamesScope (document : Value) (earlier later : Nat) (scope origin : Origin)
    (scopeNode node : Value) (mark : String) : Prop where
  scope_found : (originsOf document)[earlier]? = some scope
  scopeNode_found : (writtenNodes document)[scope.place]? = some scopeNode
  isScope : isScope scope.kind
  before : earlier < later
  origin_found : (originsOf document)[later]? = some origin
  node_found : (writtenNodes document)[origin.place]? = some node
  isType : origin.kind.isRecord ∨ origin.kind = .enum
  named : origin.name ≠ ""
  names : (bodyOf node).textField? "parentDeclContextId" = some mark
  marked : (bodyOf scopeNode).textField? "id" = some mark ∨ scopeNode.textField? "id" = some mark

/-- A scope is named by the mark of the node around its record, as only a class template can be, by
a declaration inside it. -/
def NamesOpen (scope origin : Origin) (scopeNode : Value) (mark : String) : Prop :=
  (bodyOf scopeNode).textField? "id" ≠ some mark ∧
    origin.place < scope.place + (writtenNodes scopeNode).length

instance (scope origin : Origin) (scopeNode : Value) (mark : String) :
    Decidable (NamesOpen scope origin scopeNode mark) :=
  inferInstanceAs (Decidable (_ ∧ _))

section

variable {document scopeNode node : Value} {mainFile mark name first second : String}
  {earlier later : Nat} {scope origin : Origin} {after : State} {outer : NodeId} {own : Node}

theorem NamesScope.knownAt
    (names : NamesScope document earlier later scope origin scopeNode node mark)
    (closed : ¬NamesOpen scope origin scopeNode mark) :
    KnownAt ((writtenNodes document).map Node.ofValue) (finalReader document after).done (later + 1)
      mark (earlier + 1) := by
  have own_found : ((writtenNodes document).map Node.ofValue)[scope.place]? =
      some (Node.ofValue scopeNode) := by
    rw [List.getElem?_map, names.scopeNode_found, Option.map_some]
  refine ⟨Nat.succ_lt_succ names.before, origin, scope, _,
    (finalReader_done later).trans names.origin_found,
    (finalReader_done earlier).trans names.scope_found, names.isScope, own_found, ?_⟩
  rw [body_ofValue, fields_ofValue, fields_ofValue, nodes_ofValue, List.length_map]
  by_cases body : (bodyOf scopeNode).textField? "id" = some mark
  · exact .inl body
  · exact .inr ⟨names.marked.resolve_left body,
      Nat.le_of_not_lt fun inside => closed ⟨body, inside⟩⟩

/-- No scope is known by the mark of an open class template. -/
theorem NamesScope.not_knownAt
    (names : NamesScope document earlier later scope origin scopeNode node mark)
    (laid : Laid ((writtenNodes document).map Node.ofValue) (finalReader document after))
    (distinct : ((writtenNodes document).filterMap (·.textField? "id")).Nodup)
    (isOpen : NamesOpen scope origin scopeNode mark) (other : NodeId) :
    ¬KnownAt ((writtenNodes document).map Node.ofValue) (finalReader document after).done
      (later + 1) mark other := by
  rintro ⟨-, same, outer, own, same_found, outer_found, isScope, own_found, marks⟩
  obtain ⟨body, inside⟩ := isOpen
  have scope_found : (finalReader document after).done[earlier + 1]? = some scope :=
    (finalReader_done earlier).trans names.scope_found
  have at_mark : markAt? ((writtenNodes document).map Node.ofValue) scope.place = some mark := by
    rw [markAt?, List.getElem?_map, names.scopeNode_found, Option.map_some, Option.bind_some,
      fields_ofValue]
    exact names.marked.resolve_left body
  have stands : StandsFor ((writtenNodes document).map Node.ofValue)
      (finalReader document after).done [] mark other :=
    ⟨outer, own, outer_found, isScope, own_found,
      marks.imp_right fun own_mark => ⟨own_mark.1, List.not_mem_nil⟩⟩
  obtain rfl :=
    laid.eq_of_standsFor (distinctMarks_writtenNodes distinct) scope_found at_mark stands
  obtain rfl := Option.some.inj (scope_found.symm.trans outer_found)
  obtain rfl := Option.some.inj
    (((finalReader_done later).trans names.origin_found).symm.trans same_found)
  rw [List.getElem?_map, names.scopeNode_found, Option.map_some] at own_found
  obtain rfl := Option.some.inj own_found
  rw [body_ofValue, fields_ofValue, nodes_ofValue, List.length_map] at marks
  rcases marks with again | ⟨-, ends⟩
  · exact body again
  · exact absurd inside (Nat.not_lt_of_le ends)

/-- Names inside named scopes are the same if the scopes have the same name. -/
theorem append_name_eq_iff (named : second ≠ "") :
    (if first = "" then name else first ++ "::" ++ name) = second ++ "::" ++ name ↔
      first = second := by
  by_cases top : first = ""
  · rw [if_pos top, top]
    constructor
    · intro same
      have lengths := congrArg String.length same
      rw [String.length_append, String.length_append] at lengths
      have colons : "::".length = 2 := rfl
      omega
    · intro same
      exact absurd same.symm named
  · rw [if_neg top, String.append_left_inj, String.append_left_inj]

/-- A record is moved to the scope that its node names; it stays where it is written if that is a
class template around it which it names by the outer mark. An enum always stays. -/
theorem NamesScope.scope?_eq
    (names : NamesScope document earlier later scope origin scopeNode node mark)
    (laid : Laid ((writtenNodes document).map Node.ofValue) (finalReader document after))
    (distinct : ((writtenNodes document).filterMap (·.textField? "id")).Nodup)
    (link : Link ((writtenNodes document).map Node.ofValue) (finalReader document after).done
      after.tree (later + 1) origin.kind (Node.ofValue node) outer) :
    after.tree.scope? (later + 1) =
      some (if origin.kind.isRecord ∧ ¬NamesOpen scope origin scopeNode mark then earlier + 1
        else outer) := by
  have scopeMark : (Node.ofValue node).body.fields.scopeMark? = some mark := by
    rw [body_ofValue, fields_ofValue]
    exact names.names
  split
  · rename_i moves
    exact link.moved moves.1 scopeMark (names.knownAt moves.2)
  · rename_i stays
    apply link.left
    intro key other record keyed known
    obtain rfl := Option.some.inj (scopeMark.symm.trans keyed)
    have isOpen : NamesOpen scope origin scopeNode mark :=
      not_not.mp fun closed => stays ⟨record, closed⟩
    exact names.not_knownAt laid distinct isOpen other known

end

/-- A definition that names a named scope, read before it, gets the qualified name of a member of
that scope if and only if it is a record, and not one inside a class template that it names by the
mark of the node around the template's record; or if the scope that it is written in has the same
qualified name as the one that it names. -/
theorem qualifiedName_relinked_iff {document : Value} (mainFile : String)
    (isUnit : document.textField? "kind" = some "TranslationUnitDecl")
    (distinct : ((writtenNodes document).filterMap (·.textField? "id")).Nodup) :
    ∃ tree, treeOf document mainFile = .ok tree ∧
      ∀ earlier later scope origin scopeNode node mark,
        NamesScope document earlier later scope origin scopeNode node mark →
        tree.qualifiedName (earlier + 1) ≠ "" →
          ∃ outer, later + 1 ∈ tree.children outer ∧
            (tree.qualifiedName (later + 1) =
                tree.qualifiedName (earlier + 1) ++ "::" ++ origin.name ↔
              (origin.kind.isRecord ∧ ¬NamesOpen scope origin scopeNode mark) ∨
                tree.qualifiedName outer = tree.qualifiedName (earlier + 1)) := by
  obtain ⟨after, read, laid, linked⟩ := linked_treeOf mainFile isUnit distinct
  obtain ⟨again, same, reads⟩ := reads_treeOf mainFile isUnit
  have tree_eq : after.tree = again.tree := Except.ok.inj (read.symm.trans same)
  refine ⟨_, read, fun earlier later scope origin scopeNode node mark names named => ?_⟩
  obtain ⟨declared, declared_found, isOrigin⟩ := reads.exists_yields names.origin_found
  rw [← tree_eq] at declared_found
  have listed : (finalReader document after).done[later + 1]? = some origin :=
    (finalReader_done later).trans names.origin_found
  have apart : later + 1 ≠ Tree.root := Nat.succ_ne_zero later
  have noUnit : declared.kind ≠ .unit := isOrigin.kind ▸ laid.noUnit apart listed
  have own_found : ((writtenNodes document).map Node.ofValue)[origin.place]? =
      some (Node.ofValue node) := by
    rw [List.getElem?_map, names.node_found, Option.map_some]
  obtain ⟨outer, link⟩ := linked.links apart listed own_found
  have qualified := (ordered_treeOf read).descends.qualifiedName_within linked.wellFormed.kind_root
    declared_found noUnit (isOrigin.name ▸ names.named) (names.scope?_eq laid distinct link)
  rw [isOrigin.name] at qualified
  refine ⟨outer, link.written, ?_⟩
  rw [qualified, append_name_eq_iff named]
  split
  · rename_i moves
    exact iff_of_true rfl (.inl moves)
  · rename_i stays
    exact (or_iff_right stays).symm

/-- A type `Kind` inside the class `Shape`, of which the node has the given kind. -/
def kindDeclaration (kind : String) : Value :=
  .object [("id", .string "0x2"), ("kind", .string kind), ("name", .string "Kind"),
    ("access", .string "public")]

/-- Its definition outside of the class. -/
def kindDefinition (kind : String) : Value :=
  .object [("id", .string "0x3"), ("kind", .string kind), ("name", .string "Kind"),
    ("parentDeclContextId", .string "0x1"), ("previousDecl", .string "0x2"),
    ("inner", .array [.object [("id", .string "0x4"), ("kind", .string "EnumConstantDecl"),
      ("name", .string "Round")]])]

/-- The class. -/
def shapeClass (kind : String) : Value :=
  .object [("id", .string "0x1"), ("kind", .string "CXXRecordDecl"), ("name", .string "Shape"),
    ("tagUsed", .string "class"), ("completeDefinition", .bool true),
    ("inner", .array [kindDeclaration kind])]

/-- A header with both. -/
def shapeHeader (kind : String) : Value :=
  .object [("kind", .string "TranslationUnitDecl"),
    ("inner", .array [shapeClass kind, kindDefinition kind])]

theorem writtenNodes_shapeHeader (kind : String) : ∃ constant, writtenNodes (shapeHeader kind) =
    [shapeHeader kind, shapeClass kind, kindDeclaration kind, kindDefinition kind, constant] ∧
      constant.textField? "id" = some "0x4" := by
  have inner : innerValues (shapeHeader kind) = [shapeClass kind, kindDefinition kind] := rfl
  have members : innerValues (shapeClass kind) = [kindDeclaration kind] := rfl
  have declaration : innerValues (kindDeclaration kind) = [] := rfl
  obtain ⟨constant, constants, leaf, id⟩ : ∃ constant,
      innerValues (kindDefinition kind) = [constant] ∧ innerValues constant = [] ∧
        constant.textField? "id" = some "0x4" := ⟨_, rfl, rfl, rfl⟩
  refine ⟨constant, ?_, id⟩
  simp [writtenNodes_eq, inner, members, declaration, constants, leaf]

theorem nodup_marks_shapeHeader (kind : String) :
    ((writtenNodes (shapeHeader kind)).filterMap (·.textField? "id")).Nodup := by
  obtain ⟨constant, nodes, id⟩ := writtenNodes_shapeHeader kind
  have header : (shapeHeader kind).textField? "id" = none := rfl
  have shape : (shapeClass kind).textField? "id" = some "0x1" := rfl
  have declaration : (kindDeclaration kind).textField? "id" = some "0x2" := rfl
  have definition : (kindDefinition kind).textField? "id" = some "0x3" := rfl
  simp [nodes, header, shape, declaration, definition, id]

theorem namesScope_shapeHeader (kind : String) (definition : Decl.Kind)
    (scope_found : (originsOf (shapeHeader kind))[0]? = some ⟨1, .classType, "Shape"⟩)
    (origin_found : (originsOf (shapeHeader kind))[2]? = some ⟨3, definition, "Kind"⟩)
    (isType : definition.isRecord ∨ definition = .enum)
    (own : bodyOf (kindDefinition kind) = kindDefinition kind) :
    NamesScope (shapeHeader kind) 0 2 ⟨1, .classType, "Shape"⟩ ⟨3, definition, "Kind"⟩
      (shapeClass kind) (kindDefinition kind) "0x1" := by
  obtain ⟨constant, nodes, -⟩ := writtenNodes_shapeHeader kind
  exact {
    scope_found
    scopeNode_found := by rw [nodes]; rfl
    isScope := rfl
    before := by decide
    origin_found
    node_found := by rw [nodes]; rfl
    isType
    named := by simp
    names := by rw [own]; rfl
    marked := .inr rfl }

/-- A record that is defined outside of its class has the name that it has inside. -/
theorem qualifiedName_shapeRecord :
    (shapeHeader "CXXRecordDecl").textField? "kind" = some "TranslationUnitDecl" ∧
      ((writtenNodes (shapeHeader "CXXRecordDecl")).filterMap (·.textField? "id")).Nodup ∧
      ∃ tree, treeOf (shapeHeader "CXXRecordDecl") "shape.h" = .ok tree ∧
        tree.qualifiedName 3 = "Shape::Kind" := by
  have isUnit : (shapeHeader "CXXRecordDecl").textField? "kind" = some "TranslationUnitDecl" := by
    decide
  have distinct := nodup_marks_shapeHeader "CXXRecordDecl"
  obtain ⟨tree, read, relinked⟩ := qualifiedName_relinked_iff "shape.h" isUnit distinct
  have names :=
    namesScope_shapeHeader "CXXRecordDecl" .struct (by decide) (by decide) (.inl rfl) rfl
  have shape : tree.qualifiedName 1 = "Shape" := by
    have computed : (treeOf (shapeHeader "CXXRecordDecl") "shape.h").toOption.map
        (·.qualifiedName 1) = some "Shape" := by decide +kernel
    rw [read] at computed
    exact Option.some.inj computed
  obtain ⟨outer, -, moved⟩ := relinked _ _ _ _ _ _ _ names (by rw [shape]; decide)
  refine ⟨isUnit, distinct, tree, read, ?_⟩
  have closed : ¬NamesOpen ⟨1, .classType, "Shape"⟩ ⟨3, .struct, "Kind"⟩
      (shapeClass "CXXRecordDecl") "0x1" := fun isOpen => isOpen.1 rfl
  rw [moved.mpr (.inl ⟨rfl, closed⟩), shape]
  decide

/-- An enum that is defined outside of its class loses the name that it has inside. -/
theorem qualifiedName_shapeEnum :
    (shapeHeader "EnumDecl").textField? "kind" = some "TranslationUnitDecl" ∧
      ((writtenNodes (shapeHeader "EnumDecl")).filterMap (·.textField? "id")).Nodup ∧
      NamesScope (shapeHeader "EnumDecl") 0 2 ⟨1, .classType, "Shape"⟩ ⟨3, .enum, "Kind"⟩
        (shapeClass "EnumDecl") (kindDefinition "EnumDecl") "0x1" ∧
      ∃ tree, treeOf (shapeHeader "EnumDecl") "shape.h" = .ok tree ∧
        tree.qualifiedName 1 = "Shape" ∧ tree.qualifiedName 2 = "Shape::Kind" ∧
        tree.qualifiedName 3 = "Kind" ∧ tree.qualifiedName 3 ≠ "Shape" ++ "::" ++ "Kind" := by
  have names := namesScope_shapeHeader "EnumDecl" .enum (by decide) (by decide) (.inr rfl) rfl
  refine ⟨by decide, nodup_marks_shapeHeader "EnumDecl", names, ?_⟩
  have computed : (treeOf (shapeHeader "EnumDecl") "shape.h").toOption.map (fun tree =>
      [tree.qualifiedName 1, tree.qualifiedName 2, tree.qualifiedName 3]) =
        some ["Shape", "Shape::Kind", "Kind"] := by decide +kernel
  cases read : treeOf (shapeHeader "EnumDecl") "shape.h" with
  | error fault =>
      rw [read] at computed
      cases computed
  | ok tree =>
      rw [read] at computed
      have named : [tree.qualifiedName 1, tree.qualifiedName 2, tree.qualifiedName 3] =
        ["Shape", "Shape::Kind", "Kind"] := Option.some.inj computed
      simp only [List.cons.injEq, and_true] at named
      obtain ⟨shape, declaration, definition⟩ := named
      exact ⟨tree, rfl, shape, declaration, definition, by rw [definition]; decide⟩

end Clang
end HeaderBinding
