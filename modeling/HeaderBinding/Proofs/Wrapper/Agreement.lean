import HeaderBinding.Proofs.Text.Piece
import HeaderBinding.Proofs.Wrapper.Script

/-!
# Declarations, definitions and bindings

The functions of a wrapper class are declared in its header, and bound for scripts and defined in
its source file. The function that gives the object up is one of them, the last one. Main statement:
`functions_agree`, all three show the same functions in the same order, each once.
-/

namespace HeaderBinding
namespace Wrapper

open Text
open Layout (indentation indentation_zero linesOf linesOf_append linesOf_map_line
  linesOf_paragraph paragraph)

/-! ## Functions and how they are shown -/

/-- What is shown of a function. -/
structure Prototype where
  isStatic : Bool
  isConst : Bool
  result : String
  ident : String
  /-- The parameters as written, without parentheses. -/
  params : String
  scriptName : String
  /-- The names of the parameters. -/
  names : List String

namespace Prototype

/-- The function with its parameters, and with what stands before its name. -/
def head (qualifier : String) (prototype : Prototype) : String :=
  prototype.result ++ " " ++ qualifier ++ prototype.ident ++ "(" ++ prototype.params ++ ")" ++
    if prototype.isConst then " const" else ""

/-- The declaration in a class. -/
def declaration (prototype : Prototype) : String :=
  (if prototype.isStatic then "static " else "") ++ prototype.head "" ++ ";"

/-- The binding of a function of a class to its name for scripts, with the names of its
parameters. -/
def binding (className : String) (prototype : Prototype) : String :=
  let quoted := (prototype.scriptName :: prototype.names).map fun name => "\"" ++ name ++ "\""
  (if prototype.isStatic then "ClassDB::bind_static_method(get_class_static(), "
    else "ClassDB::bind_method(") ++
    "D_METHOD(" ++ ", ".intercalate quoted ++ "), &" ++ className ++ "::" ++ prototype.ident ++ ");"

end Prototype

/-- What is shown of a wrapper function. Only those that stand for static functions are static, and
only those that stand for functions on constant objects are constant. -/
def Method.prototype (method : Method) : Prototype where
  isStatic := method.kind = .static
  isConst := method.kind = .onObject true
  result := method.result
  ident := method.ident
  params := paramList method.params
  scriptName := method.scriptName
  names := method.params.map Param.name

/-- The function that gives the object up. -/
def Class.destroyMethod (wrapper : Class) : Method where
  ident := "destroy"
  scriptName := "destroy"
  kind := .onObject false
  result := "void"
  params := []
  body := wrapper.destroy

/-- All functions of a wrapper class. -/
def Class.functions (wrapper : Class) : List Method :=
  wrapper.methods ++ [wrapper.destroyMethod]

theorem Method.constMark_eq (method : Method) :
    method.constMark = if method.prototype.isConst then " const" else "" :=
  rfl

theorem Method.declaration_eq (method : Method) :
    method.declaration = method.prototype.declaration := by
  rw [declaration, constMark_eq, Prototype.declaration, Prototype.head]
  simp [toString, prototype, isStatic, String.append_assoc]

theorem Method.definitionHead_eq (className : String) (method : Method) :
    method.definitionHead className = method.prototype.head (className ++ "::") := by
  rw [definitionHead, constMark_eq, Prototype.head]
  simp [toString, prototype, String.append_assoc]

theorem bindingSignature_eq (scriptName : String) (params : List Param) :
    bindingSignature scriptName params =
      "D_METHOD(" ++ ", ".intercalate
        ((scriptName :: params.map Param.name).map fun name => "\"" ++ name ++ "\"") ++ ")" := by
  have names : params.map (((", " ++ ·) ∘ fun name => "\"" ++ name ++ "\"") ∘ Param.name) =
      params.map fun param => ", \"" ++ param.name ++ "\"" :=
    List.map_congr_left fun param _ => by simp [← String.toList_inj]
  rw [bindingSignature, List.map_cons, intercalate_cons_eq_join, List.map_map, List.map_map, names]
  simp [toString, ← String.toList_inj]

theorem Method.binding_eq (className : String) (method : Method) :
    method.binding className = method.prototype.binding className := by
  rw [binding, bindingSignature_eq, Prototype.binding]
  by_cases static : method.kind = .static
  · simp [static, isStatic, prototype, toString, ← String.toList_inj]
  · simp [static, isStatic, prototype, toString, ← String.toList_inj]

/-! ## The header -/

/-- What a line ends in that declares a function. -/
def declarationEnds : List String :=
  [");", ") const;", ") override;"]

/-- The line declares a function, as its end shows. -/
def declaresFunction (line : String) : Bool :=
  declarationEnds.any fun back => back.toList.isSuffixOf line.toList

theorem getLast?_of_declaresFunction {line : String} (declares : declaresFunction line = true) :
    line.toList.getLast? = some ';' := by
  have ends : ∀ back ∈ declarationEnds, back.toList.getLast? = some ';' := by decide
  obtain ⟨back, listed, suffix⟩ := List.any_eq_true.mp declares
  obtain ⟨front, split⟩ := List.isSuffixOf_iff_suffix.mp suffix
  rw [← split, List.getLast?_append, ends back listed]
  rfl

theorem declaresFunction_append (front : String) {back : String} (listed : back ∈ declarationEnds) :
    declaresFunction (front ++ back) = true := by
  refine List.any_eq_true.mpr ⟨back, listed, List.isSuffixOf_iff_suffix.mpr ?_⟩
  rw [String.toList_append]
  exact List.suffix_append _ _

theorem declaresFunction_declaration (front : String) (prototype : Prototype) :
    declaresFunction (front ++ prototype.declaration) = true := by
  let back := if prototype.isConst then ") const;" else ");"
  let opened := front ++ (if prototype.isStatic then "static " else "") ++ prototype.result ++
    " " ++ prototype.ident ++ "(" ++ prototype.params
  have listed : back ∈ declarationEnds := by
    cases const : prototype.isConst <;> simp [back, const, declarationEnds]
  have split : front ++ prototype.declaration = opened ++ back := by
    cases const : prototype.isConst <;>
      simp [Prototype.declaration, Prototype.head, opened, back, const, ← String.toList_inj]
  rw [split]
  exact declaresFunction_append opened listed

theorem declaresFunction_append_eq_false (front back : String) {c : Char}
    (ends : back.toList.getLast? = some c) (other : c ≠ ';') :
    declaresFunction (front ++ back) = false := by
  rw [← Bool.not_eq_true]
  intro declares
  have last := getLast?_of_declaresFunction declares
  rw [String.toList_append, List.getLast?_append, ends] at last
  exact other (Option.some.inj last)

/-- The lines of a header before the functions of its class. -/
def Class.headerTop (wrapper : Class) (utilsName : String) : List String :=
  ["#pragma once", s!"#include \"{utilsName}\"", "",
    s!"class {wrapper.name} : public {wrapper.base}" ++ " \x7b",
    indentation 1 ++ s!"GDCLASS({wrapper.name}, {wrapper.base})", "", "public:",
    indentation 1 ++ s!"{wrapper.name}();", indentation 1 ++ s!"~{wrapper.name}() override;", "",
    indentation 1 ++ s!"// Handle to a native {wrapper.native} (opaque).",
    indentation 1 ++ "void *native = nullptr;", indentation 1 ++ "bool owned = false;", ""]

/-- The last lines of a header. -/
def headerBottom : List String :=
  ["", "protected:", indentation 1 ++ "static void _bind_methods();", "\x7d;"]

theorem linesOf_headerLayout (wrapper : Class) (utilsName : String) :
    linesOf 0 (wrapper.headerLayout utilsName) =
      wrapper.headerTop utilsName ++
        (wrapper.methods.map fun method => indentation 1 ++ method.declaration) ++
        (if wrapper.methods = [] then [] else [""]) ++
        (indentation 1 ++ wrapper.destroyMethod.declaration) :: headerBottom := by
  have last : wrapper.destroyMethod.declaration = "void destroy();" := rfl
  simp only [Class.headerLayout, linesOf, Layout.lines, linesOf_append, linesOf_paragraph,
    List.isEmpty_iff, indentation_zero, String.empty_append, last, Class.headerTop, headerBottom]
  simp

theorem filter_headerTop (wrapper : Class) (utilsName : String) :
    (wrapper.headerTop utilsName).filter declaresFunction =
      [indentation 1 ++ s!"{wrapper.name}();",
        indentation 1 ++ s!"~{wrapper.name}() override;"] := by
  have utils : declaresFunction s!"#include \"{utilsName}\"" = false :=
    declaresFunction_append_eq_false _ "\"" rfl (by decide)
  have opening : declaresFunction
      (s!"class {wrapper.name} : public {wrapper.base}" ++ " \x7b") = false :=
    declaresFunction_append_eq_false _ _ rfl (by decide)
  have host : declaresFunction
      (indentation 1 ++ s!"GDCLASS({wrapper.name}, {wrapper.base})") = false := by
    rw [← String.append_assoc]
    exact declaresFunction_append_eq_false _ ")" rfl (by decide)
  have remark : declaresFunction
      (indentation 1 ++ s!"// Handle to a native {wrapper.native} (opaque).") = false := by
    rw [← String.append_assoc]
    exact declaresFunction_append_eq_false _ " (opaque)." rfl (by decide)
  have create : declaresFunction (indentation 1 ++ s!"{wrapper.name}();") = true := by
    have split : indentation 1 ++ s!"{wrapper.name}();" =
        indentation 1 ++ wrapper.name ++ "(" ++ ");" := by
      simp [toString, ← String.toList_inj]
    rw [split]
    exact declaresFunction_append _ (by decide)
  have delete : declaresFunction (indentation 1 ++ s!"~{wrapper.name}() override;") = true := by
    have split : indentation 1 ++ s!"~{wrapper.name}() override;" =
        indentation 1 ++ "~" ++ wrapper.name ++ "(" ++ ") override;" := by
      simp [toString, ← String.toList_inj]
    rw [split]
    exact declaresFunction_append _ (by decide)
  have fixed : ∀ line ∈ ["#pragma once", "", "public:", indentation 1 ++ "void *native = nullptr;",
      indentation 1 ++ "bool owned = false;"], declaresFunction line = false := by decide
  simp only [List.forall_mem_cons] at fixed
  simp only [Class.headerTop, List.filter_cons, utils, opening, host, remark, create, delete, fixed]
  rfl

/-- The header declares the functions of its class, apart from those that every class has. -/
theorem filter_declaresFunction (wrapper : Class) (utilsName : String) :
    (linesOf 0 (wrapper.headerLayout utilsName)).filter declaresFunction =
      [indentation 1 ++ s!"{wrapper.name}();", indentation 1 ++ s!"~{wrapper.name}() override;"] ++
        (wrapper.functions.map fun method => indentation 1 ++ method.prototype.declaration) ++
        [indentation 1 ++ "static void _bind_methods();"] := by
  have gap : (if wrapper.methods = [] then [] else [""]).filter declaresFunction = [] := by
    split <;> rfl
  have methods : (wrapper.methods.map fun method => indentation 1 ++ method.declaration).filter
      declaresFunction =
        wrapper.methods.map fun method => indentation 1 ++ method.prototype.declaration := by
    simp only [Method.declaration_eq, List.filter_eq_self, List.forall_mem_map,
      declaresFunction_declaration, implies_true]
  have bottom : headerBottom.filter declaresFunction =
      [indentation 1 ++ "static void _bind_methods();"] := by
    decide
  rw [linesOf_headerLayout, List.filter_append, List.filter_append, List.filter_append,
    filter_headerTop, methods, gap, Method.declaration_eq,
    List.filter_cons_of_pos (declaresFunction_declaration _ _), bottom, Class.functions]
  simp

/-! ## The source file -/

/-- The first line and the body of a block. -/
def blockOf? : Layout → Option (String × List Layout)
  | .block head body _ => some (head, body)
  | _ => none

/-- The line binds a function to a name for scripts. -/
def bindsFunction (line : String) : Bool :=
  (boundName? line).isSome

theorem bindsFunction_binding (depth : Nat) (className : String) (method : Method) :
    bindsFunction (indentation depth ++ method.binding className) = true := by
  obtain ⟨mark, listed, rest, written⟩ := exists_binding_eq className method
  have starts : ∀ other ∈ bindingMarks, other.toList ≠ [] ∧ startsBlank other.toList = false := by
    decide
  rw [bindsFunction, boundName?, Option.isSome_map, List.isSome_findSome?, List.any_eq_true]
  refine ⟨mark, listed, ?_⟩
  rw [written, String.toList_append, trimStart_indentation, String.toList_append,
    trimStart_append (starts mark listed).1 (starts mark listed).2, dropFront?_eq_some.mpr rfl]
  rfl

theorem Class.binding_destroyMethod (wrapper : Class) :
    s!"ClassDB::bind_method(D_METHOD(\"destroy\"), &{wrapper.name}::destroy);" =
      wrapper.destroyMethod.binding wrapper.name := by
  simp [Method.binding, bindingSignature, destroyMethod, Method.isStatic, toString,
    ← String.toList_inj]

/-- The functions are bound in the first block, and nothing else is. -/
theorem exists_bindings (wrapper : Class) : ∃ body,
    blockOf? wrapper.bindings = some (s!"void {wrapper.name}::_bind_methods()", body) ∧
      (linesOf 1 body).filter bindsFunction =
        wrapper.functions.map fun method =>
          indentation 1 ++ method.prototype.binding wrapper.name := by
  refine ⟨_, rfl, ?_⟩
  have unbound : (linesOf 1 wrapper.constantLayout).filter bindsFunction = [] := by
    rw [List.filter_eq_nil_iff]
    intro line listed
    simp [bindsFunction, forall_constants_boundName? 1 wrapper line listed]
  have bound : (wrapper.functions.map fun method =>
      indentation 1 ++ method.binding wrapper.name).filter bindsFunction =
        wrapper.functions.map fun method => indentation 1 ++ method.binding wrapper.name := by
    simp only [List.filter_eq_self, List.forall_mem_map, bindsFunction_binding, implies_true]
  have written : linesOf 1 ((wrapper.methods.map fun method =>
      Layout.line (method.binding wrapper.name)) ++
        .line s!"ClassDB::bind_method(D_METHOD(\"destroy\"), &{wrapper.name}::destroy);" ::
          wrapper.constantLayout) =
      (wrapper.functions.map fun method => indentation 1 ++ method.binding wrapper.name) ++
        linesOf 1 wrapper.constantLayout := by
    rw [linesOf_append, linesOf_map_line, linesOf, Layout.lines, wrapper.binding_destroyMethod,
      Class.functions, List.map_append, List.append_assoc]
    rfl
  rw [written, List.filter_append, bound, unbound, List.append_nil]
  simp only [Method.binding_eq]

theorem filterMap_blockOf?_definitions (className : String) (methods : List Method) :
    (methods.flatMap fun method => [.blank, method.definition className]).filterMap blockOf? =
      methods.map fun method =>
        (method.prototype.head (className ++ "::"), layoutAll method.body) := by
  induction methods with
  | nil => rfl
  | cons method methods induction =>
      rw [List.flatMap_cons, List.filterMap_append, induction, Method.definition,
        Method.definitionHead_eq]
      rfl

theorem Class.definition_destroyMethod (wrapper : Class) :
    .block s!"void {wrapper.name}::destroy()" (layoutAll wrapper.destroy) "\x7d" =
      wrapper.destroyMethod.definition wrapper.name := by
  simp [Method.definition, Method.definitionHead, Method.constMark, Method.isConst, paramList,
    destroyMethod, toString, ← String.toList_inj]

theorem filterMap_blockOf?_paragraph {Item : Type} (items : List Item) (text : Item → String) :
    (paragraph (items.map fun item => .line (text item))).filterMap blockOf? = [] := by
  rw [paragraph]
  split
  · rfl
  · simp [blockOf?]

/-- The other blocks say what happens when an object goes away and define the functions. -/
theorem filterMap_blockOf?_sourceLayout (wrapper : Class) (includes : List String) :
    (wrapper.sourceLayout includes).filterMap blockOf? =
      (blockOf? wrapper.bindings).toList ++
        (s!"{wrapper.name}::~{wrapper.name}()", layoutAll destructorBody) ::
          wrapper.functions.map fun method =>
            (method.prototype.head (wrapper.name ++ "::"), layoutAll method.body) := by
  rw [← filterMap_blockOf?_definitions, Class.functions, List.flatMap_append,
    List.flatMap_singleton, List.filterMap_append, Class.sourceLayout,
    wrapper.definition_destroyMethod, List.filterMap_append, List.filterMap_append,
    List.filterMap_append, List.filterMap_append, filterMap_blockOf?_paragraph, List.append_nil,
    List.append_assoc]
  rfl

/-! ## All three -/

/-- The functions of a wrapper class are declared in its header, and bound and defined in its source
file, each once and in the same order. The function that gives the object up is the last of them. -/
theorem functions_agree (wrapper : Class) (utilsName : String) (includes : List String) :
    (wrapper.header utilsName = unlines (linesOf 0 (wrapper.headerLayout utilsName)) ∧
        (linesOf 0 (wrapper.headerLayout utilsName)).filter declaresFunction =
          [indentation 1 ++ s!"{wrapper.name}();",
              indentation 1 ++ s!"~{wrapper.name}() override;"] ++
            (wrapper.functions.map fun method => indentation 1 ++ method.prototype.declaration) ++
            [indentation 1 ++ "static void _bind_methods();"]) ∧
      wrapper.source includes = Layout.render (wrapper.sourceLayout includes) ∧
        ∃ bound,
          (wrapper.sourceLayout includes).filterMap blockOf? =
              (s!"void {wrapper.name}::_bind_methods()", bound) ::
                (s!"{wrapper.name}::~{wrapper.name}()", layoutAll destructorBody) ::
                wrapper.functions.map (fun method =>
                  (method.prototype.head (wrapper.name ++ "::"), layoutAll method.body)) ∧
            (linesOf 1 bound).filter bindsFunction =
              wrapper.functions.map fun method =>
                indentation 1 ++ method.prototype.binding wrapper.name := by
  obtain ⟨bound, block, bindings⟩ := exists_bindings wrapper
  refine ⟨⟨wrapper.header_eq utilsName, filter_declaresFunction wrapper utilsName⟩,
    wrapper.source_eq includes, bound, ?_, bindings⟩
  rw [filterMap_blockOf?_sourceLayout, block]
  rfl

end Wrapper
end HeaderBinding
