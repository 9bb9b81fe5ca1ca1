import HeaderBinding.Proofs.Clang.Constants
import HeaderBinding.Proofs.Clang.Reading

/-!
# Values of enum constants

A constant without an initializer goes on from the one before it. The reader takes every node under
a constant for an initializer, also a comment: a constant that only has a comment gets no value, and
those that go on from it get none either.
-/

namespace HeaderBinding
namespace Clang

open Decl (Content NodeId Tree)
open Json (Value)

/-! ## Constants of a document -/

/-- What a node is called; empty if it has no kind. -/
def kindOf (value : Value) : String :=
  (value.textField? "kind").getD ""

/-- The node of an enum constant. -/
def isConstant (value : Value) : Bool :=
  kindOf value = "EnumConstantDecl"

/-- The name that a node declares. -/
def nameOf (value : Value) : String :=
  (value.textField? "name").getD ""

/-- How clang calls nodes of documentation: `FullComment`, `ParagraphComment` and so on. -/
def isCommentKind (kind : String) : Bool :=
  (Text.dropBack? "Comment".toList kind.toList).isSome

/-- Nothing is written under the node. -/
def isLeaf (value : Value) : Bool :=
  (innerValues value).isEmpty

/-- Only documentation is written under the node, if anything. -/
def lacksInitializer (value : Value) : Bool :=
  (innerValues value).all fun child =>
    (writtenNodes child).all fun node => isCommentKind (kindOf node)

/-- The values of the constant expressions in a node, as they are written. One that has a value is
not looked into. -/
def constantTexts (value : Value) : List String :=
  match if kindOf value = "ConstantExpr" then value.textField? "value" else none with
  | some text => [text]
  | none => (innerValues value).attach.flatMap fun child => constantTexts child.1
termination_by sizeOf value
decreasing_by exact sizeOf_of_mem_innerValues child.2

/-- The value of the first constant expression under a node that is an integer in range. -/
def initializerValue? (value : Value) : Option Int :=
  ((innerValues value).flatMap constantTexts).findSome? Text.readInt64?

/-- The values of constants, of which `goesOn` says which ones go on from the one before them; the
first of these has the value `next`. After the largest value there is no other one. -/
def valuesFrom (goesOn : Value → Bool) (next : Option Int) : List Value → List (Option Int)
  | [] => []
  | constant :: rest =>
      let value? := if goesOn constant then next else initializerValue? constant
      value? :: valuesFrom goesOn ((value?.map (· + 1)).filter Text.fitsInt64) rest

/-! ## Initializers -/

theorem constantTexts_eq (value : Value) : constantTexts value =
    match if kindOf value = "ConstantExpr" then value.textField? "value" else none with
    | some text => [text]
    | none => (innerValues value).flatMap constantTexts := by
  rw [constantTexts]
  split
  · rfl
  · rw [List.flatMap_subtype (g := constantTexts) (by simp)]
    simp

theorem constantUnder?_cons (node : Node) (rest : List Node) :
    constantUnder? (node :: rest) = (constantUnder? [node]).or (constantUnder? rest) := by
  obtain ⟨fields, inner⟩ := node
  rw [constantUnder?, constantUnder?, constantUnder?, Option.or_none]

theorem constantUnder?_map_ofValue {values : List Value}
    (each : ∀ value ∈ values, constantUnder? [Node.ofValue value] =
      (constantTexts value).findSome? Text.readInt64?) :
    constantUnder? (values.map Node.ofValue) =
      (values.flatMap constantTexts).findSome? Text.readInt64? := by
  induction values with
  | nil => rw [List.map_nil, constantUnder?, List.flatMap_nil, List.findSome?_nil]
  | cons value rest induction =>
      obtain ⟨head, tail⟩ := List.forall_mem_cons.mp each
      rw [List.map_cons, constantUnder?_cons, head, induction tail, List.flatMap_cons,
        List.findSome?_append]

theorem constantUnder?_ofValue (value : Value) :
    constantUnder? [Node.ofValue value] = (constantTexts value).findSome? Text.readInt64? := by
  induction value using writtenNodes.induct with
  | case1 value induction =>
      have inside := constantUnder?_map_ofValue fun child member => induction ⟨child, member⟩
      have own : (if (Fields.ofValue value).kind = "ConstantExpr"
            then (Fields.ofValue value).value? else none) =
          if kindOf value = "ConstantExpr" then value.textField? "value" else none := rfl
      rw [ofValue_eq, constantUnder?, constantTexts_eq, own, constantUnder?, Option.or_none]
      cases if kindOf value = "ConstantExpr" then value.textField? "value" else none with
      | some text => simp
      | none => exact inside

/-- The reader looks for the value of an initializer under the constant. -/
theorem initializerValue?_eq (value : Value) :
    initializerValue? value = constantUnder? ((innerValues value).map Node.ofValue) :=
  (constantUnder?_map_ofValue fun child _ => constantUnder?_ofValue child).symm

theorem constantTexts_of_comment {value : Value}
    (comment : ∀ node ∈ writtenNodes value, isCommentKind (kindOf node)) :
    constantTexts value = [] := by
  induction value using writtenNodes.induct with
  | case1 value induction =>
      rw [writtenNodes_eq, List.forall_mem_cons] at comment
      obtain ⟨own, inside⟩ := comment
      have other : kindOf value ≠ "ConstantExpr" := by
        intro same
        rw [same] at own
        revert own
        decide
      rw [constantTexts_eq, if_neg other, List.flatMap_eq_nil_iff]
      intro child member
      refine induction ⟨child, member⟩ fun node written => ?_
      exact inside node (List.mem_flatMap.mpr ⟨child, member, written⟩)

/-- A comment holds no constant expression. -/
theorem initializerValue?_of_lacksInitializer {value : Value} (lacks : lacksInitializer value) :
    initializerValue? value = none := by
  have texts : (innerValues value).flatMap constantTexts = [] := by
    rw [List.flatMap_eq_nil_iff]
    intro child member
    exact constantTexts_of_comment (List.all_eq_true.mp (List.all_eq_true.mp lacks child member))
  rw [initializerValue?, texts, List.findSome?_nil]

theorem lacksInitializer_of_isLeaf {value : Value} (leaf : isLeaf value) :
    lacksInitializer value := by
  rw [lacksInitializer, List.isEmpty_iff.mp leaf, List.all_nil]

/-! ## Values in order -/

theorem constantsFrom_map_ofValue (next : Option Int) (values : List Value) :
    let constants := values.filter isConstant
    let read := constantsFrom next (values.map Node.ofValue)
    read.map Content.kind = constants.map (fun _ => .enumConstant) ∧
      read.map Content.name = constants.map nameOf ∧
      read.map Content.value? = valuesFrom isLeaf next constants := by
  induction values generalizing next with
  | nil => exact ⟨rfl, rfl, rfl⟩
  | cons value rest induction =>
      have kind : (Fields.ofValue value).kind = kindOf value := rfl
      have name : (Fields.ofValue value).name = nameOf value := rfl
      have leaf : ((innerValues value).map Node.ofValue).isEmpty = isLeaf value :=
        List.isEmpty_map
      simp only [List.map_cons, ofValue_eq value, constantsFrom, kind, name, leaf,
        ← initializerValue?_eq, List.filter_cons, isConstant]
      by_cases constant : kindOf value = "EnumConstantDecl"
      · simpa [constant, valuesFrom, isConstant] using induction _
      · simpa [constant, isConstant] using induction next

section

variable {first second : Value → Bool} {next : Option Int} {constants : List Value}

/-- Of constants that go on for the second reader only, no one may have a value. -/
theorem valuesFrom_eq_iff (fewer : ∀ constant, first constant → second constant)
    (bare : ∀ constant, second constant → initializerValue? constant = none) :
    valuesFrom first next constants = valuesFrom second next constants ↔
      ∀ item ∈ constants.zip (valuesFrom second next constants),
        second item.1 → first item.1 = false → item.2 = none := by
  induction constants generalizing next with
  | nil => simp [valuesFrom]
  | cons constant rest induction =>
      simp only [valuesFrom, List.zip_cons_cons, List.forall_mem_cons, List.cons.injEq]
      by_cases own : first constant = true
      · simp [own, fewer constant own, induction]
      · by_cases goesOn : second constant = true
        · have noValue := bare constant goesOn
          cases next with
          | none => simp [own, goesOn, noValue, induction]
          | some value => simp [own, goesOn, noValue]
        · simp [own, goesOn, induction]

end

/-! ## Enums of a document -/

/-- Every enum of a document has the constants that are written under its node, with values that go
on where nothing is written under a constant. -/
theorem contents_treeOf {document : Value} (mainFile : String)
    (isUnit : document.textField? "kind" = some "TranslationUnitDecl") :
    ∃ tree, treeOf document mainFile = .ok tree ∧
      ∀ number origin, (originsOf document)[number]? = some origin → origin.kind = .enum →
        ∃ value, (writtenNodes document)[origin.place]? = some value ∧
          kindOf value = "EnumDecl" ∧
          tree.contents (number + 1) =
            constantsFrom (some 0) ((innerValues value).map Node.ofValue) := by
  obtain ⟨tree, made, adds⟩ := adds_treeOf mainFile isUnit
  obtain ⟨_, -, reads⟩ := reads_treeOf mainFile isUnit
  refine ⟨tree, made, fun number origin found isEnum => ?_⟩
  obtain ⟨node, written, contents_eq⟩ := adds.enums number origin found isEnum
  rw [List.getElem?_map] at written
  obtain ⟨value, value_found, rfl⟩ := Option.map_eq_some_iff.mp written
  refine ⟨value, value_found, ?_, ?_⟩
  · obtain ⟨fields, place, writtenAs⟩ :=
      reads.ordered.written origin (List.mem_of_getElem? found)
    rw [List.getElem?_map, value_found] at place
    cases place
    exact writtenAs.kind.trans (by rw [isEnum]; rfl)
  · rw [ofValue_eq value, Node.inner] at contents_eq
    rw [Nat.add_comm]
    exact contents_eq

/-- The constants of every enum are read in their order. A constant has the value of its
initializer, or goes on from the one before it if nothing is written under it. Constants that have
comments instead of initializers go on too only if they have no value anyway. -/
theorem values_of_treeOf_iff {document : Value} (mainFile : String)
    (isUnit : document.textField? "kind" = some "TranslationUnitDecl") :
    ∃ tree, treeOf document mainFile = .ok tree ∧
      ∀ number origin, (originsOf document)[number]? = some origin → origin.kind = .enum →
        ∃ value, (writtenNodes document)[origin.place]? = some value ∧
          kindOf value = "EnumDecl" ∧
          let constants := (innerValues value).filter isConstant
          let read := tree.contents (number + 1)
          let expected := valuesFrom lacksInitializer (some 0) constants
          read.map Content.kind = constants.map (fun _ => .enumConstant) ∧
            read.map Content.name = constants.map nameOf ∧
            read.map Content.value? = valuesFrom isLeaf (some 0) constants ∧
            (read.map Content.value? = expected ↔ ∀ item ∈ constants.zip expected,
              lacksInitializer item.1 → isLeaf item.1 = false → item.2 = none) := by
  obtain ⟨tree, made, enums⟩ := contents_treeOf mainFile isUnit
  refine ⟨tree, made, fun number origin found isEnum => ?_⟩
  obtain ⟨value, written, kind, contents_eq⟩ := enums number origin found isEnum
  refine ⟨value, written, kind, ?_⟩
  obtain ⟨kinds, names, values⟩ := constantsFrom_map_ofValue (some 0) (innerValues value)
  rw [contents_eq]
  refine ⟨kinds, names, values, ?_⟩
  rw [values]
  exact valuesFrom_eq_iff (fun _ => lacksInitializer_of_isLeaf)
    (fun _ => initializerValue?_of_lacksInitializer)

/-- A node of a kind with a name and nodes under it. -/
def nodeOf (kind name : String) (inner : List Value) : Value :=
  .object [("kind", .string kind), ("name", .string name), ("inner", .array inner)]

/-- An enum of four constants: one with the given nodes under it, one with nothing, one with both a
comment and an initializer, and one with nothing again. -/
def colorEnum (red : List Value) : Value :=
  let five := .object [("kind", .string "ConstantExpr"), ("value", .string "5")]
  nodeOf "EnumDecl" "Color" [nodeOf "EnumConstantDecl" "Red" red,
    nodeOf "EnumConstantDecl" "Green" [],
    nodeOf "EnumConstantDecl" "Blue" [nodeOf "FullComment" "" [], five],
    nodeOf "EnumConstantDecl" "White" []]

/-- A header that declares nothing but the enum. -/
def colorHeader (red : List Value) : Value :=
  nodeOf "TranslationUnitDecl" "" [colorEnum red]

theorem getElem?_writtenNodes_colorHeader (red : List Value) :
    (writtenNodes (colorHeader red))[1]? = some (colorEnum red) := by
  have inner : innerValues (colorHeader red) = [colorEnum red] := rfl
  rw [writtenNodes_eq, inner, List.flatMap_singleton, writtenNodes_eq]
  rfl

theorem values_plainColors :
    (colorHeader []).textField? "kind" = some "TranslationUnitDecl" ∧
      ∃ tree, treeOf (colorHeader []) "color.h" = .ok tree ∧
        (tree.contents 1).map Content.value? = [some 0, some 1, some 5, some 6] := by
  have isUnit : (colorHeader []).textField? "kind" = some "TranslationUnitDecl" := by decide
  obtain ⟨tree, made, enums⟩ := values_of_treeOf_iff "color.h" isUnit
  obtain ⟨value, written, -, -, -, values, -⟩ := enums 0 ⟨1, .enum, "Color"⟩ (by decide) rfl
  obtain rfl := Option.some.inj ((getElem?_writtenNodes_colorHeader []).symm.trans written)
  exact ⟨isUnit, tree, made, values.trans (by decide +kernel)⟩

/-- A comment takes the value of its constant and that of the next one. -/
theorem values_remarkedColors :
    let remarked := [nodeOf "FullComment" "" []]
    ∃ tree, treeOf (colorHeader remarked) "color.h" = .ok tree ∧
      (tree.contents 1).map Content.value? = [none, none, some 5, some 6] ∧
      valuesFrom lacksInitializer (some 0) ((innerValues (colorEnum remarked)).filter isConstant) =
        [some 0, some 1, some 5, some 6] := by
  intro remarked
  have isUnit : (colorHeader remarked).textField? "kind" = some "TranslationUnitDecl" := by decide
  obtain ⟨tree, made, enums⟩ := contents_treeOf "color.h" isUnit
  obtain ⟨value, written, -, contents_eq⟩ := enums 0 ⟨1, .enum, "Color"⟩ (by decide) rfl
  obtain rfl := Option.some.inj ((getElem?_writtenNodes_colorHeader _).symm.trans written)
  refine ⟨tree, made, ?_, by decide +kernel⟩
  rw [contents_eq, (constantsFrom_map_ofValue (some 0) _).2.2]
  decide +kernel

end Clang
end HeaderBinding
