import HeaderBinding.Proofs.Settings.Group
import HeaderBinding.Proofs.Text.Decimal

/-!
# Settings as a command line

Settings are written as groups of arguments, one for each thing that they say. The groups may stand
in any order that keeps the search folders in theirs, and each may be written in any way. Main
statement: `read_written`, the command line asks for a run with the same settings.
-/

namespace HeaderBinding
namespace Settings

open CommandLine

/-- The values that the settings give an option. -/
@[simp]
def valuesOf (settings : Settings) : ValueOption → List String
  | .searchFolder => settings.includes
  | .includeBase => settings.includeBase?.toList
  | .outFolder => [settings.outFolder]
  | .family => [settings.family]
  | .mapping => settings.mappingFile?.toList
  | .clang => [settings.clang]
  | .standard => [settings.standard]
  | .base => [settings.base]
  | .logLevel => [settings.logLevel.name]
  | .jobs => [toString settings.jobs]

/-- One group for each value of an option. -/
def valueGroups (settings : Settings) : List Group :=
  let options : List ValueOption :=
    [.searchFolder, .includeBase, .outFolder, .family, .mapping, .clang, .standard, .base,
      .logLevel, .jobs]
  options.flatMap fun option => (settings.valuesOf option).map (.value option)

/-- The groups for what the settings say. -/
def groups (settings : Settings) : List Group :=
  (if settings.headers = [] then [] else [.headers settings.headers]) ++
    (if settings.includeHeaders then [.includeHeaders] else []) ++ settings.valueGroups ++
    if settings.clangArguments = [] then [] else [.clangArguments settings.clangArguments]

/-- The settings can be written: a command line holds no mappings and a positive number of jobs that
fits in a word, and nothing in a list may look like what can follow the list. -/
structure IsWritable (settings : Settings) : Prop where
  overrides_eq : settings.overrides = ∅
  plain : ∀ pattern ∈ settings.headers, pattern.toList.head? ≠ some '-'
  jobs_pos : 0 < settings.jobs
  jobs_le : settings.jobs ≤ Text.wordMax
  forwarded : ∀ argument ∈ settings.clangArguments, ¬EndsArguments argument

section

variable {settings : Settings} {groups : List Group}

theorem mem_valueGroups_iff {group : Group} :
    group ∈ settings.valueGroups ↔
      ∃ option, ∃ text ∈ settings.valuesOf option, .value option text = group := by
  have all (option : ValueOption) : option ∈ ([.searchFolder, .includeBase, .outFolder, .family,
      .mapping, .clang, .standard, .base, .logLevel, .jobs] : List ValueOption) := by
    cases option <;> decide
  simp only [valueGroups, List.mem_flatMap, List.mem_map, all, true_and]

theorem isReadable_of_mem_groups (writable : settings.IsWritable) :
    ∀ group ∈ settings.groups, group.IsReadable := by
  intro group listed
  simp only [Settings.groups, List.mem_append, mem_valueGroups_iff] at listed
  rcases listed with ((patterns | inclusion) | ⟨option, text, value, rfl⟩) | arguments
  · split at patterns
    · cases patterns
    · rename_i filled
      obtain rfl := List.mem_singleton.mp patterns
      exact ⟨filled, writable.plain⟩
  · split at inclusion
    · obtain rfl := List.mem_singleton.mp inclusion
      trivial
    · cases inclusion
  · cases option with
    | logLevel =>
        obtain rfl := List.mem_singleton.mp value
        rw [Group.IsReadable, LogLevel.ofName?_name]
        rfl
    | jobs =>
        obtain rfl := List.mem_singleton.mp value
        exact ⟨settings.jobs, Text.readWord?_toString writable.jobs_le, writable.jobs_pos⟩
    | _ => trivial
  · split at arguments
    · cases arguments
    · obtain rfl := List.mem_singleton.mp arguments
      exact writable.forwarded

/-! ## What the groups say, in any order -/

theorem eq_of_perm_of_length_le_one {Item : Type} {first second : List Item}
    (order : first.Perm second) (few : second.length ≤ 1) : first = second := by
  match second with
  | [] => exact order.eq_nil
  | [item] => exact List.perm_singleton.mp order
  | _ :: _ :: _ => simp at few

theorem values_groups (option : ValueOption) :
    values option settings.groups = settings.valuesOf option := by
  have own (other : ValueOption) (texts : List String) :
      (texts.map (Group.value other)).filterMap (Group.value? option) =
        if other = option then texts else [] := by
    rw [List.filterMap_map]
    split
    · rename_i same
      rw [same]
      exact (List.filterMap_congr fun text _ => if_pos rfl).trans List.filterMap_some
    · rename_i differs
      exact List.filterMap_eq_nil_iff.mpr fun text _ => if_neg differs
  have headers : (if settings.headers = [] then [] else [Group.headers settings.headers]).filterMap
      (Group.value? option) = [] := by
    split <;> rfl
  have inclusion : (if settings.includeHeaders then [Group.includeHeaders] else []).filterMap
      (Group.value? option) = [] := by
    split <;> rfl
  have arguments : (if settings.clangArguments = [] then []
      else [Group.clangArguments settings.clangArguments]).filterMap (Group.value? option) = [] := by
    split <;> rfl
  rw [values, Settings.groups, List.filterMap_append, List.filterMap_append, List.filterMap_append,
    headers, inclusion, arguments, List.nil_append, List.nil_append, List.append_nil, valueGroups,
    List.filterMap_flatMap]
  simp only [own]
  cases option <;> simp

theorem values_eq (order : groups.Perm settings.groups)
    (kept : values .searchFolder groups = settings.includes) (option : ValueOption) :
    values option groups = settings.valuesOf option := by
  by_cases folders : option = .searchFolder
  · rw [folders, kept, valuesOf]
  · have permuted := order.filterMap (Group.value? option)
    rw [← values, ← values, values_groups] at permuted
    apply eq_of_perm_of_length_le_one permuted
    cases option with
    | searchFolder => contradiction
    | includeBase | mapping => exact Option.length_toList_le
    | _ => exact Nat.le_refl 1

/-- Only the groups for the two lists add to lists. -/
theorem filter_map_groups {part : Group → List String}
    (values : ∀ option text, part (.value option text) = [])
    (others : part .includeHeaders = [] ∧ part (.headers []) = [] ∧
      part (.clangArguments []) = []) :
    (settings.groups.map part).filter (· ≠ []) =
      [part (.headers settings.headers),
        part (.clangArguments settings.clangArguments)].filter (· ≠ []) := by
  obtain ⟨inclusion, no_headers, no_arguments⟩ := others
  have headers :
      ((if settings.headers = [] then [] else [.headers settings.headers]).map part).filter
        (· ≠ []) = [part (.headers settings.headers)].filter (· ≠ []) := by
    split <;> simp_all
  have included :
      ((if settings.includeHeaders then [.includeHeaders] else []).map part).filter (· ≠ []) =
        [] := by
    split <;> simp_all
  have arguments :
      ((if settings.clangArguments = [] then []
        else [.clangArguments settings.clangArguments]).map part).filter (· ≠ []) =
        [part (.clangArguments settings.clangArguments)].filter (· ≠ []) := by
    split <;> simp_all
  have nothing : (settings.valueGroups.map part).filter (· ≠ []) = [] := by
    rw [List.filter_eq_nil_iff]
    intro added listed
    obtain ⟨group, member, rfl⟩ := List.mem_map.mp listed
    obtain ⟨option, text, -, rfl⟩ := mem_valueGroups_iff.mp member
    simp [values]
  simp only [Settings.groups, List.map_append, List.filter_append, headers, included, nothing,
    arguments]
  rw [List.append_nil, List.append_nil, ← List.filter_append, List.singleton_append]

/-- What a kind of group adds to a list is all in one group, so it does not matter where that is. -/
theorem flatMap_eq (order : groups.Perm settings.groups) {part : Group → List String}
    {whole : List String}
    (parts : (settings.groups.map part).filter (· ≠ []) = [whole].filter (· ≠ [])) :
    groups.flatMap part = whole := by
  have few : ((settings.groups.map part).filter (· ≠ [])).length ≤ 1 := by
    rw [parts]
    exact List.length_filter_le _ _
  have same := eq_of_perm_of_length_le_one ((order.map part).filter (· ≠ [])) few
  rw [List.flatMap_def, ← List.flatten_filter_ne_nil, same, parts, List.flatten_filter_ne_nil,
    List.flatten_singleton]

theorem contains_includeHeaders (order : groups.Perm settings.groups) :
    groups.contains .includeHeaders = settings.includeHeaders := by
  rw [Bool.eq_iff_iff, List.contains_iff_mem, order.mem_iff]
  simp [Settings.groups, mem_valueGroups_iff]

theorem settingsOf_eq (writable : settings.IsWritable) (order : groups.Perm settings.groups)
    (kept : values .searchFolder groups = settings.includes) : settingsOf groups = settings := by
  have patterns : groups.flatMap Group.patterns = settings.headers := by
    refine flatMap_eq order ((filter_map_groups (fun _ _ => rfl) ⟨rfl, rfl, rfl⟩).trans ?_)
    simp [List.filter_cons]
  have forwarded : groups.flatMap Group.forwarded = settings.clangArguments := by
    refine flatMap_eq order ((filter_map_groups (fun _ _ => rfl) ⟨rfl, rfl, rfl⟩).trans ?_)
    simp
  have inclusion := contains_includeHeaders order
  have value := values_eq order kept
  have level := LogLevel.ofName?_name settings.logLevel
  have jobs := Text.readWord?_toString writable.jobs_le
  have optional (value? : Option String) : value?.toList.getLast? = value? := by
    cases value? <;> rfl
  simp only [settingsOf, patterns, forwarded, inclusion, value, valuesOf, List.getLast?_singleton,
    Option.getD_some, Option.bind_some, optional, level, jobs]
  rw [← writable.overrides_eq]

/-- However settings are written, group by group in any order that keeps the search folders in
theirs, the command line asks for a run with exactly these settings. -/
theorem read_written {written : List (List String)} (writable : settings.IsWritable)
    (order : groups.Perm settings.groups) (kept : values .searchFolder groups = settings.includes)
    (all_written : List.Forall₂ Group.IsWritten groups written) :
    read written.flatten = .ok (.run settings) := by
  have readable : ∀ group ∈ groups, group.IsReadable := fun group listed =>
    isReadable_of_mem_groups writable group (order.mem_iff.mp listed)
  rw [read_flatten readable all_written, settingsOf_eq writable order kept]

/-- Settings with values that look like options. -/
def hyphenated : Settings where
  headers := ["shapes/*.hxx", "", "a=b.h"]
  includes := ["-I", "--prefix=x", "-I"]
  includeBase? := some ""
  outFolder := "--"
  family := "x=y"
  mappingFile? := some "-h"
  includeHeaders := true
  clangArguments := ["-DFOO=1", "-H", "", "--target=wasm32"]
  logLevel := .critical
  jobs := 18446744073709551615

/-- The groups for these settings, with the lists first. -/
def hyphenatedGroups : List Group :=
  [.clangArguments ["-DFOO=1", "-H", "", "--target=wasm32"], .value .searchFolder "-I",
    .headers ["shapes/*.hxx", "", "a=b.h"], .value .jobs "18446744073709551615",
    .value .searchFolder "--prefix=x", .value .family "x=y", .value .outFolder "--",
    .value .mapping "-h", .includeHeaders, .value .searchFolder "-I", .value .includeBase "",
    .value .clang "clang", .value .standard "c++17", .value .logLevel "CRITICAL",
    .value .base "Object"]

/-- The groups as written. -/
def hyphenatedArguments : List (List String) :=
  [["--clang-args", "-DFOO=1", "-H", "", "--target=wasm32", "--"], ["-I", "-I"],
    ["-H", "shapes/*.hxx", "", "a=b.h"], ["--jobs=18446744073709551615"], ["-I", "--prefix=x"],
    ["--prefix=x=y"], ["-o", "--"], ["--map", "-h"], ["--include-originals"], ["-I", "-I"],
    ["--include-rel-base="], ["--clang", "clang"], ["--std=c++17"], ["--log-level", "CRITICAL"],
    ["--godot-base", "Object"]]

theorem read_hyphenatedArguments :
    hyphenated.IsWritable ∧ hyphenatedGroups.Perm hyphenated.groups ∧
      values .searchFolder hyphenatedGroups = hyphenated.includes ∧
      List.Forall₂ Group.IsWritten hyphenatedGroups hyphenatedArguments ∧
      read hyphenatedArguments.flatten = .ok (.run hyphenated) := by
  have writable : hyphenated.IsWritable := by
    refine ⟨rfl, by decide, by decide, by decide, ?_⟩
    simp only [endsArguments_iff]
    decide
  have order : hyphenatedGroups.Perm hyphenated.groups := by
    decide
  have kept : values .searchFolder hyphenatedGroups = hyphenated.includes := by
    decide
  have all_written : List.Forall₂ Group.IsWritten hyphenatedGroups hyphenatedArguments := by
    exact .cons (.clangArguments rfl _) <| .cons (.apart rfl _) <| .cons (.headers rfl _) <|
      .cons (@Group.IsWritten.inline "--jobs" _ rfl rfl _) <| .cons (.apart rfl _) <|
      .cons (@Group.IsWritten.inline "--prefix" _ rfl rfl _) <| .cons (.apart rfl _) <|
      .cons (.apart rfl _) <| .cons (.includeHeaders rfl) <| .cons (.apart rfl _) <|
      .cons (@Group.IsWritten.inline "--include-rel-base" _ rfl rfl _) <| .cons (.apart rfl _) <|
      .cons (@Group.IsWritten.inline "--std" _ rfl rfl _) <| .cons (.apart rfl _) <|
      .cons (.apart rfl _) .nil
  exact ⟨writable, order, kept, all_written, read_written writable order kept all_written⟩

end

end Settings
end HeaderBinding
