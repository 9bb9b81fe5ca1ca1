import HeaderBinding.Proofs.Api.Site
import HeaderBinding.Proofs.Wrapper.Registration
import HeaderBinding.Wrapper.Files
import Mathlib.Data.List.Nodup

/-!
# The set of generated files

The names of all generated files begin with the name of the family. What follows tells the files of
a class from those of others, because classes have different flat identifiers, and from the shared
ones, unless a class is called `register`.
-/

namespace HeaderBinding

namespace Api

/-- Classes are listed by their flat identifiers, of which no two are the same. -/
theorem pairwise_flatName_foldl_keep (models : List Class) :
    ((models.foldl keep ∅).classes.map Class.flatName).Pairwise (· < ·) := by
  have keys : (models.foldl keep ∅).classes.map Class.flatName = (models.foldl keep ∅).keys := by
    rw [classes, NameMap.values_eq_map_toList, List.map_map,
      ← Std.ExtTreeMap.map_fst_toList_eq_keys]
    refine List.map_congr_left fun item member => ?_
    have found := Std.ExtTreeMap.mem_toList_iff_getElem?_eq_some.mp member
    exact (mem_of_getElem?_foldl_keep found).2
  rw [keys]
  exact (@Std.ExtTreeMap.ordered_keys _ _ _ (models.foldl keep ∅) _).imp
    compareOfLessAndEq_eq_lt.mp

theorem length_classes (api : Api) : api.classes.length = api.size := by
  rw [classes, NameMap.values_eq_map_toList, List.length_map, Std.ExtTreeMap.length_toList]

theorem isWordChar_of_mem_flatName {model : Class} {c : Char}
    (member : c ∈ model.flatName.toList) : Identifier.isWordChar c := by
  simp only [Class.flatName, Identifier.flat, String.toList_ofList, Identifier.safeChars,
    List.mem_map] at member
  obtain ⟨other, -, rfl⟩ := member
  split
  · assumption
  · decide

end Api

namespace Wrapper

open Text

/-! ## Names -/

/-- What the names of all files end in, after the name of the family. -/
def endings (flatNames : List String) : List String :=
  ["utils.h", "register.h", "register.cpp"] ++
    flatNames.flatMap fun flatName => [flatName ++ ".hpp", flatName ++ ".cpp"]

/-- Texts with different characters at some place from the end are different. -/
theorem append_ne_append {back other : String}
    (apart : AreApart back.toList.reverse other.toList.reverse) (first second : String) :
    first ++ back ≠ second ++ other := by
  intro same
  have backward := congrArg (fun s => s.toList.reverse) same
  simp only [String.toList_append, List.reverse_append] at backward
  have taken : dropFront? back.toList.reverse (other.toList.reverse ++ second.toList.reverse) =
      some first.toList.reverse := dropFront?_eq_some.mpr backward.symm
  rw [dropFront?_eq_none_of_areApart (apart.append _)] at taken
  cases taken

theorem nodup_endings_iff {flatNames : List String} (distinct : flatNames.Nodup) :
    (endings flatNames).Nodup ↔ "register" ∉ flatNames := by
  have header_ne_source (first second : String) : first ++ ".hpp" ≠ second ++ ".cpp" :=
    append_ne_append (by decide) first second
  have header_ne_shared (flatName : String) : ∀ shared ∈ ["utils.h", "register.h", "register.cpp"],
      shared ≠ flatName ++ ".hpp" := by
    intro shared member
    have apart : AreApart shared.toList.reverse ".hpp".toList.reverse := by
      revert shared
      decide
    simpa using append_ne_append apart "" flatName
  have source_ne_shared (flatName : String) :
      (∀ shared ∈ ["utils.h", "register.h", "register.cpp"], shared ≠ flatName ++ ".cpp") ↔
        flatName ≠ "register" := by
    have utils := @append_ne_append "utils.h" ".cpp" (by decide) "" flatName
    have header := @append_ne_append "register.h" ".cpp" (by decide) "" flatName
    have source : "register.cpp" = flatName ++ ".cpp" ↔ "register" = flatName :=
      @String.append_left_inj "register" flatName ".cpp"
    rw [String.empty_append] at utils header
    simp [source, utils, header, eq_comm]
  have apart : flatNames.Pairwise (Function.onFun List.Disjoint
      fun flatName => [flatName ++ ".hpp", flatName ++ ".cpp"]) := by
    refine distinct.imp fun {first second} ne => ?_
    simp [Function.onFun, List.Disjoint, ne, header_ne_source, (header_ne_source _ _).symm]
  have own : (flatNames.flatMap fun flatName => [flatName ++ ".hpp", flatName ++ ".cpp"]).Nodup :=
    List.nodup_flatMap.mpr ⟨fun flatName _ => by simp [header_ne_source], apart⟩
  rw [endings, List.nodup_append]
  constructor
  · rintro ⟨-, -, disjoint⟩ member
    refine (source_ne_shared "register").mp (fun shared listed => ?_) rfl
    exact disjoint shared listed _ (List.mem_flatMap.mpr ⟨_, member, by simp⟩)
  · intro absent
    refine ⟨by decide, own, fun shared listed name member => ?_⟩
    obtain ⟨flatName, flat_mem, either⟩ := List.mem_flatMap.mp member
    have other : flatName ≠ "register" := fun same => absent (same ▸ flat_mem)
    simp only [List.mem_cons, List.not_mem_nil, or_false] at either
    rcases either with rfl | rfl
    · exact header_ne_shared flatName shared listed
    · exact (source_ne_shared flatName).mpr other shared listed

theorem map_name_ofApi (scope : TypeScope) (options : EmitOptions) (api : Api) :
    (ofApi scope options api).map Class.name =
      api.classes.map fun model => className options.family model.flatName := by
  rw [ofApi, List.map_map]
  rfl

theorem map_name_emit (scope : TypeScope) (options : EmitOptions) (api : Api) :
    (emit scope options api).map GeneratedFile.name =
      [Shared.utilsName options.family, Shared.registerHeaderName options.family,
          Shared.registerSourceName options.family] ++
        (api.classes.map fun model => className options.family model.flatName).flatMap
          fun name => [Class.headerName name, Class.sourceName name] := by
  rw [← map_name_ofApi scope]
  simp [emit, sharedFiles, Class.files, List.map_flatMap, List.flatMap_map]

theorem map_name_emit_eq_map_endings (scope : TypeScope) (options : EmitOptions) (api : Api) :
    (emit scope options api).map GeneratedFile.name =
      (endings (api.classes.map Api.Class.flatName)).map (options.family ++ "_" ++ ·) := by
  rw [map_name_emit]
  simp [endings, List.map_flatMap, List.flatMap_map, Shared.utilsName, Shared.registerHeaderName,
    Shared.registerSourceName, Class.headerName, Class.sourceName, className, toString,
    String.append_assoc]

/-- The names are different if no class is called like the registration. -/
theorem nodup_name_emit_iff (scope : TypeScope) (options : EmitOptions) (models : List Api.Class) :
    let api := models.foldl Api.keep ∅
    ((emit scope options api).map GeneratedFile.name).Nodup ↔
      ∀ model ∈ api.classes, model.flatName ≠ "register" := by
  intro api
  have injective : Function.Injective (options.family ++ "_" ++ ·) := by
    intro first second same
    simpa using same
  have distinct : (api.classes.map Api.Class.flatName).Nodup := by
    apply (Api.pairwise_flatName_foldl_keep models).imp
    rintro first _ lt rfl
    exact String.lt_irrefl first lt
  rw [map_name_emit_eq_map_endings, List.nodup_map_iff injective, nodup_endings_iff distinct]
  simp [api]

/-! ## Contents -/

/-- A line of the text includes the file. -/
def Includes (text file : String) : Prop :=
  ∃ lines, text = unlines lines ∧ file ∈ lines.filterMap includedFile?

theorem includes_render {pieces : List Layout} {file : String}
    (member : s!"#include \"{file}\"" ∈ Layout.linesOf 0 pieces) :
    Includes (Layout.render pieces) file :=
  ⟨_, rfl, List.mem_filterMap.mpr ⟨_, member, includedFile?_include file⟩⟩

theorem includes_header (wrapper : Class) (utilsName : String) :
    Includes (wrapper.header utilsName) utilsName := by
  rw [wrapper.header_eq]
  apply includes_render
  simp [Class.headerLayout, Layout.linesOf, Layout.lines, Layout.indentation_zero]

theorem includes_source (wrapper : Class) (includes : List String) :
    Includes (wrapper.source includes) (Class.headerName wrapper.name) := by
  rw [wrapper.source_eq]
  apply includes_render
  simp [Class.sourceLayout, Layout.linesOf, Layout.lines, Layout.indentation_zero]

/-- The text has these lines, which include the files and register the classes in this order. They
can be read off the text if the name of the family is on one line. -/
structure Registers (family text : String) (lines files names : List String) : Prop where
  written : text = unlines lines
  included : lines.filterMap includedFile? = files
  registered : lines.filterMap registeredClass? = names
  split : '\n' ∉ family.toList → text.toList.splitOn '\n' = (lines ++ [""]).map String.toList

theorem registers_registerSource {family : String} {names : List String}
    (single : '\n' ∉ family.toList → ∀ name ∈ names, '\n' ∉ name.toList) :
    ∃ lines, Registers family (Shared.registerSource family names) lines
      (Shared.registerHeaderName family :: names.map Class.headerName) names := by
  have listed := lists_registerSource family names
  have written := Shared.registerSource_eq family names
  refine ⟨_, written, listed.included, listed.registered, fun family_single => ?_⟩
  rw [written]
  apply splitOn_unlines
  refine listed.single family_single fun name member => ?_
  rcases List.mem_append.mp member with file | registered
  · rcases List.mem_cons.mp file with rfl | header
    · simp [Shared.registerHeaderName, toString, family_single]
    · obtain ⟨className, class_mem, rfl⟩ := List.mem_map.mp header
      simp [Class.headerName, toString, single family_single className class_mem]
  · exact single family_single name registered

/-! ## All files -/

theorem notMem_className {family : String} (family_single : '\n' ∉ family.toList)
    (model : Api.Class) :
    '\n' ∉ (className family model.flatName).toList := by
  have flat_single : '\n' ∉ model.flatName.toList := fun member =>
    absurd (Api.isWordChar_of_mem_flatName member) (by decide)
  simp [className, toString, family_single, flat_single]

/-- Every class has a header and a source file, no file has the name of another one, and the
registration includes and registers exactly the classes with files. -/
theorem consistent_emit (scope : TypeScope) (options : EmitOptions) (models : List Api.Class)
    (named : ∀ model ∈ (models.foldl Api.keep ∅).classes, model.flatName ≠ "register") :
    let api := models.foldl Api.keep ∅
    let files := emit scope options api
    let names := api.classes.map fun model => className options.family model.flatName
    let utils := Shared.utilsName options.family
    let header := Shared.registerHeaderName options.family
    let source := Shared.registerSourceName options.family
    files.length = 3 + 2 * api.size ∧ (files.map GeneratedFile.name).Nodup ∧
      (api.classes.map Api.Class.flatName).Pairwise (· < ·) ∧
      files.map GeneratedFile.name = [utils, header, source] ++
        names.flatMap (fun name => [Class.headerName name, Class.sourceName name]) ∧
      (∃ file ∈ files, file.name = source ∧ ∃ lines,
        Registers options.family file.contents lines (header :: names.map Class.headerName)
          names) ∧
      ∀ name ∈ names,
        (∃ file ∈ files, file.name = Class.sourceName name ∧
          Includes file.contents (Class.headerName name)) ∧
        ∃ file ∈ files, file.name = Class.headerName name ∧ Includes file.contents utils := by
  intro api files names utils header source
  have names_eq : files.map GeneratedFile.name = [utils, header, source] ++
      names.flatMap fun name => [Class.headerName name, Class.sourceName name] :=
    map_name_emit scope options api
  refine ⟨?_, (nodup_name_emit_iff scope options models).mpr named,
    Api.pairwise_flatName_foldl_keep models, names_eq, ?_, ?_⟩
  · have count := congrArg List.length names_eq
    simp only [List.length_map, List.length_append, List.length_flatMap, List.length_cons,
      List.length_nil, List.map_const', List.sum_replicate_nat, names, Api.length_classes] at count
    omega
  · let wrapperNames := (ofApi scope options api).map Class.name
    have emitted : ⟨source, Shared.registerSource options.family wrapperNames⟩ ∈ files :=
      List.mem_append_left _ (by simp [sharedFiles, wrapperNames, source])
    refine ⟨_, emitted, rfl, ?_⟩
    simp only [wrapperNames, map_name_ofApi]
    refine registers_registerSource fun family_single name member => ?_
    obtain ⟨model, -, rfl⟩ := List.mem_map.mp member
    exact notMem_className family_single model
  · intro name member
    obtain ⟨model, listed, rfl⟩ := List.mem_map.mp member
    have wrapped : ofClass scope options.family options.base model ∈ ofApi scope options api :=
      List.mem_map.mpr ⟨model, listed, rfl⟩
    have emitted : ∀ file ∈ (ofClass scope options.family options.base model).files options,
        file ∈ files :=
      fun file own => List.mem_append_right _ (List.mem_flatMap.mpr ⟨_, wrapped, own⟩)
    constructor
    · exact ⟨_, emitted _ (List.mem_cons_of_mem _ (List.mem_cons_self ..)), rfl,
        includes_source _ _⟩
    · exact ⟨_, emitted _ (List.mem_cons_self ..), rfl, includes_header _ _⟩

/-- Classes whose files come in another order than their declarations. -/
def shapeDeclarations : List Api.Class :=
  [{ qualifiedName := "TopoDS::Shape" }, { qualifiedName := "gp_Pnt" },
    { qualifiedName := "TopoDS::Edge" }]

theorem emit_shapeDeclarations :
    (∀ model ∈ (shapeDeclarations.foldl Api.keep ∅).classes, model.flatName ≠ "register") ∧
      ((emit ⟨.empty, ∅⟩ {} (shapeDeclarations.foldl Api.keep ∅)).map GeneratedFile.name).Nodup ∧
      (emit ⟨.empty, ∅⟩ {} (shapeDeclarations.foldl Api.keep ∅)).map GeneratedFile.name =
        ["ocgd_utils.h", "ocgd_register.h", "ocgd_register.cpp", "ocgd_TopoDS_Edge.hpp",
          "ocgd_TopoDS_Edge.cpp", "ocgd_TopoDS_Shape.hpp", "ocgd_TopoDS_Shape.cpp",
          "ocgd_gp_Pnt.hpp", "ocgd_gp_Pnt.cpp"] := by
  have named : ∀ model ∈ (shapeDeclarations.foldl Api.keep ∅).classes,
      model.flatName ≠ "register" := by
    decide +kernel
  obtain ⟨-, distinct, -, names_eq, -, -⟩ := consistent_emit ⟨.empty, ∅⟩ {} shapeDeclarations named
  refine ⟨named, distinct, ?_⟩
  rw [names_eq]
  decide +kernel

end Wrapper
end HeaderBinding
