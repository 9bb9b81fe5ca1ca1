import HeaderBinding.Proofs.Text.Apart
import HeaderBinding.Proofs.Wrapper.Layout
import Mathlib.Data.List.Basic

/-!
# What the registration says

The source file of the registration is read line by line: some lines include a file, some register a
class, and all others are told apart from both by what they begin with.
-/

namespace HeaderBinding

namespace Text

theorem trimStart_indentation (depth : Nat) (text : List Char) :
    trimStart ((Layout.indentation depth).toList ++ text) = trimStart text := by
  have blank : ∀ c ∈ (Layout.indentation depth).toList, isBlank c := by
    intro c member
    obtain rfl := Layout.eq_of_mem_indentation member
    decide
  exact List.dropWhile_append_of_pos blank

theorem trimStart_append {front : List Char} (filled : front ≠ [])
    (starts : startsBlank front = false) (rest : List Char) :
    trimStart (front ++ rest) = front ++ rest := by
  cases front with
  | nil => contradiction
  | cons c front => exact List.dropWhile_cons_of_neg (by simpa [startsBlank] using starts)

end Text

namespace Wrapper

open Text
open Layout (indentation linesOf linesOf_append linesOf_map_line linesOf_paragraph
  eq_of_mem_indentation paragraph)

/-! ## Lines that say something -/

/-- What a line begins with that includes a file. -/
def includeMark : String := "#include \""

/-- The file that a line includes. -/
def includedFile? (line : String) : Option String :=
  ((dropFront? includeMark.toList line.toList).bind (dropBack? ['"'])).map String.ofList

/-- What a line begins with that registers a class, apart from blanks. -/
def registerMark : String := "GDREGISTER_CLASS("

/-- The class that a line registers. -/
def registeredClass? (line : String) : Option String :=
  ((dropFront? registerMark.toList (trimStart line.toList)).bind (dropBack? [')', ';'])).map
    String.ofList

theorem includedFile?_include (file : String) :
    includedFile? s!"#include \"{file}\"" = some file := by
  have split : (s!"#include \"{file}\"").toList =
      includeMark.toList ++ (file.toList ++ ['"']) := by
    simp [toString, includeMark]
  have back : dropBack? ['"'] (file.toList ++ ['"']) = some file.toList :=
    dropBack?_eq_some.mpr rfl
  rw [includedFile?, dropFront?_eq_some.mpr split, Option.bind_some, back, Option.map_some,
    String.ofList_toList]

theorem registeredClass?_register (depth : Nat) (name : String) :
    registeredClass? (indentation depth ++ s!"GDREGISTER_CLASS({name});") = some name := by
  have written : (s!"GDREGISTER_CLASS({name});").toList =
      registerMark.toList ++ (name.toList ++ [')', ';']) := by
    simp [toString, registerMark]
  have split : trimStart (indentation depth ++ s!"GDREGISTER_CLASS({name});").toList =
      registerMark.toList ++ (name.toList ++ [')', ';']) := by
    rw [String.toList_append, trimStart_indentation, written,
      trimStart_append (by decide) (by decide)]
  have back : dropBack? [')', ';'] (name.toList ++ [')', ';']) = some name.toList :=
    dropBack?_eq_some.mpr rfl
  rw [registeredClass?, dropFront?_eq_some.mpr split, Option.bind_some, back, Option.map_some,
    String.ofList_toList]

theorem includedFile?_eq_none {text : String} (apart : AreApart includeMark.toList text.toList)
    (depth : Nat) : includedFile? (indentation depth ++ text) = none := by
  have other : AreApart includeMark.toList (indentation depth ++ text).toList := by
    cases depth with
    | zero => simpa [Layout.indentation_zero] using apart
    | succ depth =>
        have step : AreApart includeMark.toList Writer.step.toList := by decide
        rw [Layout.indentation_succ, String.append_assoc, String.toList_append]
        exact step.append _
  rw [includedFile?, dropFront?_eq_none_of_areApart other]
  rfl

theorem registeredClass?_eq_none {text : String}
    (apart : AreApart registerMark.toList (trimStart text.toList)) (depth : Nat) :
    registeredClass? (indentation depth ++ text) = none := by
  rw [registeredClass?, String.toList_append, trimStart_indentation,
    dropFront?_eq_none_of_areApart apart]
  rfl

/-! ## Lines that say nothing -/

/-- A text of a family of files that does not begin like one that includes a file or registers a
class, and that is on one line if the name of the family is. -/
structure IsOther (family text : String) : Prop where
  includes : AreApart includeMark.toList text.toList
  registers : AreApart registerMark.toList text.toList
  starts : startsBlank text.toList = false
  single : '\n' ∉ family.toList → '\n' ∉ text.toList

/-- A text that is so, whatever the family is called. -/
def IsFixed (text : String) : Prop :=
  AreApart includeMark.toList text.toList ∧ AreApart registerMark.toList text.toList ∧
    startsBlank text.toList = false ∧ '\n' ∉ text.toList

instance (text : String) : Decidable (IsFixed text) :=
  inferInstanceAs (Decidable (_ ∧ _ ∧ _ ∧ _))

/-- A line of a family of files that neither includes a file nor registers a class. -/
structure IsPlain (family line : String) : Prop where
  includedFile? : includedFile? line = none
  registeredClass? : registeredClass? line = none
  single : '\n' ∉ family.toList → '\n' ∉ line.toList

section

variable {family text : String}

theorem IsFixed.isOther (fixed : IsFixed text) : IsOther family text :=
  ⟨fixed.1, fixed.2.1, fixed.2.2.1, fun _ => fixed.2.2.2⟩

theorem IsOther.append {rest : String} (other : IsOther family text)
    (single : '\n' ∉ family.toList → '\n' ∉ rest.toList) : IsOther family (text ++ rest) where
  includes := by
    rw [String.toList_append]
    exact other.includes.append _
  registers := by
    rw [String.toList_append]
    exact other.registers.append _
  starts := by
    have filled := other.includes.ne_nil
    have starts := other.starts
    rw [String.toList_append]
    cases letters : text.toList with
    | nil => contradiction
    | cons c rest => simpa [letters, startsBlank] using starts
  single family_single := by
    rw [String.toList_append, List.mem_append, not_or]
    exact ⟨other.single family_single, single family_single⟩

/-- A text between fixed ones, such as the name of the family. -/
theorem IsFixed.around {front back : String} (fixed : IsFixed front)
    (single : '\n' ∉ family.toList → '\n' ∉ text.toList) (back_single : '\n' ∉ back.toList) :
    IsOther family (front ++ text ++ back) :=
  (fixed.isOther.append single).append fun _ => back_single

theorem notMem_indentation (depth : Nat) : '\n' ∉ (indentation depth).toList :=
  fun member => absurd (eq_of_mem_indentation member) (by decide)

theorem isPlain_empty : IsPlain family "" :=
  ⟨rfl, rfl, fun _ => by simp⟩

theorem IsOther.isPlain (other : IsOther family text) (depth : Nat) :
    IsPlain family (indentation depth ++ text) where
  includedFile? := includedFile?_eq_none other.includes depth
  registeredClass? := by
    have starts := trimStart_append other.includes.ne_nil other.starts []
    rw [List.append_nil] at starts
    exact registeredClass?_eq_none (by rw [starts]; exact other.registers) depth
  single family_single := by
    rw [String.toList_append, List.mem_append, not_or]
    exact ⟨notMem_indentation depth, other.single family_single⟩

theorem IsFixed.isPlain (fixed : IsFixed text) (depth : Nat) :
    IsPlain family (indentation depth ++ text) :=
  fixed.isOther.isPlain depth

end

/-! ## What lines say together -/

/-- The lines include these files and register these classes, in this order. All of them are lines
if no name has more than one. -/
structure Lists (family : String) (lines files names : List String) : Prop where
  included : lines.filterMap includedFile? = files
  registered : lines.filterMap registeredClass? = names
  single : '\n' ∉ family.toList → (∀ name ∈ files ++ names, '\n' ∉ name.toList) →
    ∀ line ∈ lines, '\n' ∉ line.toList

namespace Lists

variable {family line : String} {lines later files others names rest : List String}

theorem nil : Lists family [] [] [] :=
  ⟨rfl, rfl, by simp⟩

theorem cons (head : IsPlain family line) (tail : Lists family lines files names) :
    Lists family (line :: lines) files names where
  included := by rw [List.filterMap_cons_none head.includedFile?, tail.included]
  registered := by rw [List.filterMap_cons_none head.registeredClass?, tail.registered]
  single family_single names_single :=
    List.forall_mem_cons.mpr
      ⟨head.single family_single, tail.single family_single names_single⟩

theorem append (first : Lists family lines files names) (second : Lists family later others rest) :
    Lists family (lines ++ later) (files ++ others) (names ++ rest) where
  included := by rw [List.filterMap_append, first.included, second.included]
  registered := by rw [List.filterMap_append, first.registered, second.registered]
  single family_single names_single line member := by
    simp only [List.mem_append] at names_single member
    rcases member with before | after
    · refine first.single family_single (fun name listed => names_single name ?_) line before
      exact (List.mem_append.mp listed).imp .inl .inl
    · refine second.single family_single (fun name listed => names_single name ?_) line after
      exact (List.mem_append.mp listed).imp .inr .inr

theorem append_plain (first : Lists family lines files names) (second : Lists family later [] []) :
    Lists family (lines ++ later) files names := by
  simpa using first.append second

theorem includes (files : List String) :
    Lists family (files.map fun file => s!"#include \"{file}\"") files [] where
  included := by
    rw [List.filterMap_map]
    exact (List.filterMap_congr fun file _ => includedFile?_include file).trans List.filterMap_some
  registered := by
    have other (file : String) : registeredClass? s!"#include \"{file}\"" = none := by
      have front : AreApart registerMark.toList (trimStart includeMark.toList) := by decide
      have apart : AreApart registerMark.toList
          (trimStart (includeMark ++ (file ++ "\"")).toList) := by
        rw [String.toList_append, trimStart_append (by decide) (by decide)]
        exact front.append _
      simpa [Layout.indentation_zero, includeMark, toString, String.append_assoc] using
        registeredClass?_eq_none apart 0
    rw [List.filterMap_map]
    exact List.filterMap_eq_nil_iff.mpr fun file _ => other file
  single := by simp [toString]

theorem registers (depth : Nat) (names : List String) :
    Lists family (names.map fun name => indentation depth ++ s!"GDREGISTER_CLASS({name});") []
      names where
  included := by
    have other (name : String) :
        includedFile? (indentation depth ++ s!"GDREGISTER_CLASS({name});") = none := by
      have front : AreApart includeMark.toList registerMark.toList := by decide
      have apart : AreApart includeMark.toList (registerMark ++ (name ++ ");")).toList := by
        rw [String.toList_append]
        exact front.append _
      simpa [registerMark, toString, String.append_assoc] using includedFile?_eq_none apart depth
    rw [List.filterMap_map]
    exact List.filterMap_eq_nil_iff.mpr fun name _ => other name
  registered := by
    rw [List.filterMap_map]
    exact (List.filterMap_congr fun name _ => registeredClass?_register depth name).trans
      List.filterMap_some
  single := by simp [toString, notMem_indentation]

theorem includeBlock (files : List String) :
    Lists family (linesOf 0 (paragraph (files.map fun file => .line s!"#include \"{file}\"")))
      files [] := by
  have gap : Lists family (if files.isEmpty then [] else [""]) [] [] := by
    split
    · exact nil
    · exact nil.cons isPlain_empty
  rw [linesOf_paragraph]
  simpa [Layout.indentation_zero] using (includes files).append gap

end Lists

/-- The registration includes its own header and those of the classes that it registers. -/
theorem lists_registerSource (family : String) (names : List String) :
    Lists family (linesOf 0 (Shared.registerSourceLayout family names))
      (Shared.registerHeaderName family :: names.map Class.headerName) names := by
  have own : Lists family
      (linesOf 0 [.line s!"#include \"{Shared.registerHeaderName family}\"", .blank])
      [Shared.registerHeaderName family] [] := by
    have ends : Lists family [""] [] [] := Lists.nil.cons isPlain_empty
    simpa [linesOf, Layout.lines, Layout.indentation_zero] using
      (Lists.includes [Shared.registerHeaderName family]).append ends
  have headers := @Lists.includeBlock family (names.map Class.headerName)
  have entry_single (family_single : '\n' ∉ family.toList) :
      '\n' ∉ (Shared.entrySymbol family).toList := by
    simp [Shared.entrySymbol, toString, family_single]
  have brace : '\n' ∉ " \x7b".toList := by decide
  have function : IsFixed "void " := by decide
  have entry : IsFixed "GDExtensionBool GDE_EXPORT " := by decide
  have initializer : IsFixed "init_obj.register_initializer(" := by decide
  have terminator : IsFixed "init_obj.register_terminator(" := by decide
  have all : Lists family (linesOf 0 (Shared.registerSourceLayout family names))
      ([Shared.registerHeaderName family] ++ names.map Class.headerName ++ [])
      ([] ++ [] ++ names) := by
    rw [Shared.registerSourceLayout, linesOf_append, linesOf_append]
    refine .append (.append own (by simpa [Function.comp_def] using headers)) ?_
    simp only [linesOf, Layout.lines, linesOf_map_line, List.append_nil, List.cons_append,
      List.nil_append, List.append_assoc]
    -- up to the registrations
    refine .cons (IsFixed.isPlain (by decide) 0) <| .cons isPlain_empty <|
      .cons (((function.around id (by decide)).append fun _ => brace).isPlain 0) <|
      .cons (IsFixed.isPlain (by decide) 1) <| .cons (IsFixed.isPlain (by decide) 2) <|
      .cons (IsFixed.isPlain (by decide) 1) ?_
    exact .append_plain (.registers 1 names) <|
      .cons (IsFixed.isPlain (by decide) 0) <| .cons isPlain_empty <|
      .cons (((function.around id (by decide)).append fun _ => brace).isPlain 0) <|
      .cons (IsFixed.isPlain (by decide) 1) <| .cons (IsFixed.isPlain (by decide) 0) <|
      .cons isPlain_empty <| .cons (IsFixed.isPlain (by decide) 0) <|
      .cons (((((entry.around entry_single (by decide)).append fun _ => by decide).append
        fun _ => by decide).append fun _ => brace).isPlain 1) <|
      .cons (IsFixed.isPlain (by decide) 2) <|
      .cons ((initializer.around id (by decide)).isPlain 2) <|
      .cons ((terminator.around id (by decide)).isPlain 2) <|
      .cons (IsFixed.isPlain (by decide) 2) <| .cons isPlain_empty <|
      .cons (IsFixed.isPlain (by decide) 2) <| .cons (IsFixed.isPlain (by decide) 1) <|
      .cons (IsFixed.isPlain (by decide) 0) .nil
  simpa using all

end Wrapper
end HeaderBinding
