import HeaderBinding.Settings.CommandLine
import Mathlib.Data.List.Forall2

/-!
# What a command line says

A command line is made of groups of arguments, each an option with what belongs to it. Patterns,
search folders and arguments for clang add up, and of any other option the last value counts. A
group takes in nothing of the next one. Main statement: `read_flatten`.
-/

namespace HeaderBinding
namespace CommandLine

/-- An option with what belongs to it. -/
inductive Group where
  | headers (patterns : List String)
  | clangArguments (arguments : List String)
  | includeHeaders
  | value (option : ValueOption) (text : String)
  deriving DecidableEq, Repr

/-- The name of a long option. -/
def IsLongName (name : String) : Prop :=
  begins "--" name = true ∧ (Flag.ofName? name).isSome

/-- The argument is a lone `--`, or a long option with or without a value. -/
def EndsArguments (argument : String) : Prop :=
  argument = "--" ∨
    ∃ name, IsLongName name ∧ (argument = name ∨ ∃ value, argument = name ++ "=" ++ value)

namespace Group

/-- The ways to write a group: an option goes by any of its names, and a long one may have its value
after an equals sign. -/
inductive IsWritten : Group → List String → Prop
  | headers {name : String} (named : Flag.ofName? name = some .headers) (patterns : List String) :
      IsWritten (headers patterns) (name :: patterns)
  | clangArguments {name : String} (named : Flag.ofName? name = some .clangArguments)
      (arguments : List String) :
      IsWritten (clangArguments arguments) (name :: (arguments ++ ["--"]))
  | includeHeaders {name : String} (named : Flag.ofName? name = some .includeHeaders) :
      IsWritten includeHeaders [name]
  | apart {name : String} {option : ValueOption} (named : Flag.ofName? name = some (.value option))
      (text : String) : IsWritten (value option text) [name, text]
  | inline {name : String} {option : ValueOption} (named : Flag.ofName? name = some (.value option))
      (long : begins "--" name = true) (text : String) :
      IsWritten (value option text) [name ++ "=" ++ text]

/-- The group can be told from what follows it, and its value is one that the option can have. -/
def IsReadable : Group → Prop
  | headers patterns => patterns ≠ [] ∧ ∀ pattern ∈ patterns, pattern.toList.head? ≠ some '-'
  | clangArguments arguments => ∀ argument ∈ arguments, ¬EndsArguments argument
  | value .logLevel text => (LogLevel.ofName? text).isSome
  | value .jobs text => ∃ jobs, Text.readWord? text = some jobs ∧ 0 < jobs
  | value _ _ | includeHeaders => True

/-- The header patterns in a group. -/
@[simp]
def patterns : Group → List String
  | headers patterns => patterns
  | _ => []

/-- The arguments for clang in a group. -/
@[simp]
def forwarded : Group → List String
  | clangArguments arguments => arguments
  | _ => []

/-- The value of an option, if that is what the group gives. -/
@[simp]
def value? (option : ValueOption) : Group → Option String
  | value other text => if other = option then some text else none
  | _ => none

end Group

/-- The values of an option, in their order. -/
def values (option : ValueOption) (groups : List Group) : List String :=
  groups.filterMap (Group.value? option)

/-- The settings that groups ask for. -/
def settingsOf (groups : List Group) : Settings :=
  let default : Settings := {}
  let last (option : ValueOption) : Option String := (values option groups).getLast?
  { headers := groups.flatMap Group.patterns
    includes := values .searchFolder groups
    includeBase? := last .includeBase
    outFolder := (last .outFolder).getD default.outFolder
    family := (last .family).getD default.family
    mappingFile? := last .mapping
    clang := (last .clang).getD default.clang
    includeHeaders := groups.contains .includeHeaders
    clangArguments := groups.flatMap Group.forwarded
    standard := (last .standard).getD default.standard
    base := (last .base).getD default.base
    logLevel := ((last .logLevel).bind LogLevel.ofName?).getD default.logLevel
    jobs := ((last .jobs).bind Text.readWord?).getD default.jobs }

section

variable {settings next : Settings} {pending after : Pending} {name argument text : String}
  {option : ValueOption} {groups : List Group} {group : Group} {arguments rest : List String}

/-! ## One more group -/

@[simp]
theorem values_concat : values option (groups ++ [group]) =
    values option groups ++ (group.value? option).toList := by
  rw [values, List.filterMap_append, List.filterMap_cons, List.filterMap_nil, ← values]
  cases group.value? option <;> rfl

theorem settingsOf_headers (patterns : List String) :
    settingsOf (groups ++ [.headers patterns]) =
      { settingsOf groups with headers := (settingsOf groups).headers ++ patterns } := by
  simp [settingsOf]

theorem settingsOf_clangArguments (more : List String) :
    settingsOf (groups ++ [.clangArguments more]) =
      { settingsOf groups with
        clangArguments := (settingsOf groups).clangArguments ++ more } := by
  simp [settingsOf]

theorem settingsOf_includeHeaders :
    settingsOf (groups ++ [.includeHeaders]) =
      { settingsOf groups with includeHeaders := true } := by
  simp [settingsOf]

theorem assign_settingsOf (readable : (Group.value option text).IsReadable) :
    assign (settingsOf groups) option text = .ok (settingsOf (groups ++ [.value option text])) := by
  cases option with
  | logLevel =>
      obtain ⟨level, read⟩ := Option.isSome_iff_exists.mp readable
      simp [settingsOf, assign, read]
  | jobs =>
      obtain ⟨jobs, read, positive⟩ := readable
      simp [settingsOf, assign, read, Option.filter_some, positive]
  | _ => simp [settingsOf, assign]

/-! ## Names and values -/

theorem begins_iff {front : String} :
    begins front argument = true ↔ ∃ rest, argument.toList = front.toList ++ rest := by
  rw [begins, Option.isSome_iff_exists]
  simp only [Text.dropFront?_eq_some]

theorem begins_hyphen_iff : begins "-" argument = true ↔ argument.toList.head? = some '-' := by
  rw [begins_iff, List.head?_eq_some_iff]
  rfl

theorem begins_append {front : String} (begun : begins front name = true) (more : String) :
    begins front (name ++ more) = true := by
  rw [begins_iff] at begun ⊢
  obtain ⟨rest, split⟩ := begun
  exact ⟨rest ++ more.toList, by rw [String.toList_append, split, List.append_assoc]⟩

/-- The name of an option begins with a hyphen and has no equals sign in it. -/
theorem isName_of_ofName? {flag : Flag} (named : Flag.ofName? name = some flag) :
    begins "-" name = true ∧ '=' ∉ name.toList := by
  unfold Flag.ofName? at named
  split at named
  all_goals first | cases named; done | decide

theorem nameAndValue_name (unequal : '=' ∉ name.toList) : nameAndValue name = (name, none) := by
  have uncut : Text.cut? '=' name.toList = none := by
    rw [Option.eq_none_iff_forall_ne_some]
    rintro ⟨before, value⟩ found
    obtain ⟨-, split⟩ := Text.cut?_eq_some.mp found
    exact unequal (by simp [split])
  rw [nameAndValue, inlineValue?, uncut]
  split
  · rename_i found
    split at found <;> cases found
  · rfl

theorem nameAndValue_inline (long : begins "--" name = true) (unequal : '=' ∉ name.toList)
    (value : String) : nameAndValue (name ++ "=" ++ value) = (name, some value) := by
  have whole : (name ++ "=" ++ value).toList = name.toList ++ '=' :: value.toList := by simp
  have begun : begins "--" (name ++ "=" ++ value) = true := begins_append (begins_append long _) _
  have cut : Text.cut? '=' (name ++ "=" ++ value).toList = some (name.toList, value.toList) :=
    Text.cut?_eq_some.mpr ⟨unequal, whole⟩
  have found : inlineValue? (name ++ "=" ++ value) = some (name, value) := by
    rw [inlineValue?, if_pos begun, cut, Option.map_some]
    dsimp only
    rw [String.ofList_toList, String.ofList_toList]
  rw [nameAndValue, found]

/-- What begins with two hyphens has them before its first equals sign. -/
theorem begins_of_inlineValue? {value : String}
    (found : inlineValue? argument = some (name, value)) :
    begins "--" name = true ∧ argument = name ++ "=" ++ value := by
  rw [inlineValue?] at found
  split at found
  · rename_i begun
    obtain ⟨⟨before, later⟩, cut, pair⟩ := Option.map_eq_some_iff.mp found
    obtain ⟨rfl, rfl⟩ := Prod.mk.inj pair
    obtain ⟨-, split⟩ := Text.cut?_eq_some.mp cut
    obtain ⟨rest, hyphens⟩ := begins_iff.mp begun
    rw [begins_iff, String.toList_ofList, ← String.toList_inj, split]
    refine ⟨?_, by simp⟩
    have letters : "--".toList = ['-', '-'] := rfl
    rw [split, letters] at hyphens
    rcases before with _ | ⟨first, _ | ⟨second, before⟩⟩
    · simp at hyphens
    · simp at hyphens
    · obtain ⟨rfl, more⟩ := List.cons.inj hyphens
      obtain ⟨rfl, -⟩ := List.cons.inj more
      exact ⟨before, rfl⟩
  · cases found

theorem isLongOption_iff : isLongOption argument = true ↔
    ∃ name, IsLongName name ∧ (argument = name ∨ ∃ value, argument = name ++ "=" ++ value) := by
  constructor
  · intro long
    rw [isLongOption, Bool.and_eq_true] at long
    obtain ⟨begun, named⟩ := long
    cases found : inlineValue? argument with
    | none =>
        rw [nameAndValue, found] at named
        exact ⟨argument, ⟨begun, named⟩, .inl rfl⟩
    | some item =>
        obtain ⟨name, value⟩ := item
        rw [nameAndValue, found] at named
        obtain ⟨name_begun, rfl⟩ := begins_of_inlineValue? found
        exact ⟨name, ⟨name_begun, named⟩, .inr ⟨value, rfl⟩⟩
  · rintro ⟨name, ⟨begun, named⟩, written⟩
    obtain ⟨flag, known⟩ := Option.isSome_iff_exists.mp named
    have unequal := (isName_of_ofName? known).2
    rw [isLongOption, Bool.and_eq_true]
    rcases written with rfl | ⟨value, rfl⟩
    · rw [nameAndValue_name unequal]
      exact ⟨begun, named⟩
    · rw [nameAndValue_inline begun unequal]
      exact ⟨begins_append (begins_append begun _) _, named⟩

theorem endsArguments_iff :
    EndsArguments argument ↔ argument = "--" ∨ isLongOption argument = true := by
  rw [isLongOption_iff, EndsArguments]

/-! ## Reading a group -/

/-- An option may come next. -/
def Pending.IsReady (pending : Pending) : Prop :=
  pending = .option ∨ pending = .pattern

theorem readFrom_cons (taken : step settings pending argument = .ok (.reading next after)) :
    readFrom settings pending (argument :: rest) = readFrom next after rest := by
  rw [readFrom, taken]

theorem step_eq_startOption (ready : pending.IsReady) (hyphen : begins "-" argument = true) :
    step settings pending argument = startOption settings argument := by
  rcases ready with rfl | rfl
  · rfl
  · rw [step, if_pos hyphen]

/-- The name of an option alone starts the option. -/
theorem step_name (settings : Settings) {flag : Flag} (ready : pending.IsReady)
    (named : Flag.ofName? name = some flag) :
    step settings pending name = startOption settings name ∧ nameAndValue name = (name, none) := by
  obtain ⟨hyphen, unequal⟩ := isName_of_ofName? named
  exact ⟨step_eq_startOption ready hyphen, nameAndValue_name unequal⟩

theorem readFrom_patterns {patterns : List String}
    (plain : ∀ pattern ∈ patterns, pattern.toList.head? ≠ some '-') :
    readFrom settings .pattern (patterns ++ rest) =
      readFrom { settings with headers := settings.headers ++ patterns } .pattern rest := by
  induction patterns generalizing settings with
  | nil => simp
  | cons pattern patterns induction =>
      rw [List.forall_mem_cons] at plain
      have taken : step settings .pattern pattern =
          .ok (.reading (addPattern settings pattern) .pattern) := by
        rw [step, if_neg fun hyphen => plain.1 (begins_hyphen_iff.mp hyphen)]
      rw [List.cons_append, readFrom_cons taken, induction plain.2]
      simp [addPattern]

theorem readFrom_clangArguments (plain : ∀ argument ∈ arguments, ¬EndsArguments argument) :
    readFrom settings .clangArgument (arguments ++ "--" :: rest) =
      readFrom { settings with clangArguments := settings.clangArguments ++ arguments } .option
        rest := by
  induction arguments generalizing settings with
  | nil => rw [List.nil_append, List.append_nil, readFrom_cons rfl]
  | cons argument arguments induction =>
      rw [List.forall_mem_cons] at plain
      have taken : step settings .clangArgument argument =
          .ok (.reading (addClangArgument settings argument) .clangArgument) := by
        rw [endsArguments_iff, not_or] at plain
        rw [step, if_neg plain.1.1, if_neg plain.1.2]
      rw [List.cons_append, readFrom_cons taken, induction plain.2]
      simp [addClangArgument]

/-- A group is read to its end and no further. -/
theorem exists_readFrom_group (groups : List Group) (ready : pending.IsReady)
    (written : group.IsWritten arguments) (readable : group.IsReadable) :
    ∃ after : Pending, after.IsReady ∧ ∀ rest,
      readFrom (settingsOf groups) pending (arguments ++ rest) =
        readFrom (settingsOf (groups ++ [group])) after rest := by
  cases written with
  | @headers name named patterns =>
      obtain ⟨filled, plain⟩ := readable
      obtain ⟨pattern, patterns, rfl⟩ := List.exists_cons_of_ne_nil filled
      obtain ⟨starts, alone⟩ := step_name (settingsOf groups) ready named
      have started : step (settingsOf groups) pending name =
          .ok (.reading (settingsOf groups) (.firstPattern name)) := by
        rw [starts]
        simp only [startOption, alone, named]
      rw [List.forall_mem_cons] at plain
      have first : step (settingsOf groups) (.firstPattern name) pattern =
          .ok (.reading (addPattern (settingsOf groups) pattern) .pattern) := by
        rw [step, if_neg fun hyphen => plain.1 (begins_hyphen_iff.mp hyphen)]
      refine ⟨.pattern, .inr rfl, fun rest => ?_⟩
      rw [List.cons_append, List.cons_append, readFrom_cons started, readFrom_cons first,
        readFrom_patterns plain.2, settingsOf_headers]
      simp [addPattern]
  | @clangArguments name named arguments =>
      obtain ⟨starts, alone⟩ := step_name (settingsOf groups) ready named
      have started : step (settingsOf groups) pending name =
          .ok (.reading (settingsOf groups) .clangArgument) := by
        rw [starts]
        simp only [startOption, alone, named]
      refine ⟨.option, .inl rfl, fun rest => ?_⟩
      rw [List.cons_append, readFrom_cons started, List.append_assoc, List.singleton_append,
        readFrom_clangArguments readable, settingsOf_clangArguments]
  | @includeHeaders name named =>
      obtain ⟨starts, alone⟩ := step_name (settingsOf groups) ready named
      refine ⟨.option, .inl rfl, fun rest => ?_⟩
      rw [List.singleton_append, settingsOf_includeHeaders]
      apply readFrom_cons
      rw [starts]
      simp only [startOption, alone, named]
  | @apart name option named text =>
      obtain ⟨starts, alone⟩ := step_name (settingsOf groups) ready named
      have started : step (settingsOf groups) pending name =
          .ok (.reading (settingsOf groups) (.value option name)) := by
        rw [starts]
        simp only [startOption, alone, named]
      refine ⟨.option, .inl rfl, fun rest => ?_⟩
      rw [List.cons_append, readFrom_cons started, List.singleton_append]
      apply readFrom_cons
      rw [step, assign_settingsOf readable]
      rfl
  | @inline name option named long text =>
      obtain ⟨hyphen, unequal⟩ := isName_of_ofName? named
      have parts := nameAndValue_inline long unequal text
      have whole_hyphen : begins "-" (name ++ "=" ++ text) = true :=
        begins_append (begins_append hyphen _) _
      refine ⟨.option, .inl rfl, fun rest => ?_⟩
      rw [List.singleton_append]
      apply readFrom_cons
      rw [step_eq_startOption ready whole_hyphen]
      simp only [startOption, parts, named, assign_settingsOf readable]
      rfl

/-- Whatever the groups and however each is written, the command line asks for a run with the
settings that the groups ask for. -/
theorem read_flatten {written : List (List String)}
    (readable : ∀ group ∈ groups, group.IsReadable)
    (all_written : List.Forall₂ Group.IsWritten groups written) :
    read written.flatten = .ok (.run (settingsOf groups)) := by
  -- The settings so far are those that the groups read so far ask for.
  have continued (before : List Group) {pending : Pending} (ready : pending.IsReady) :
      readFrom (settingsOf before) pending written.flatten =
        .ok (.run (settingsOf (before ++ groups))) := by
    induction all_written generalizing before pending with
    | nil =>
        rw [List.flatten_nil, List.append_nil]
        rcases ready with rfl | rfl <;> rfl
    | @cons group arguments groups written first _ induction =>
        rw [List.forall_mem_cons] at readable
        obtain ⟨after, after_ready, taken⟩ :=
          exists_readFrom_group before ready first readable.1
        rw [List.flatten_cons, taken, induction readable.2 _ after_ready, List.append_assoc,
          List.singleton_append]
  exact continued [] (.inl rfl)

end

end CommandLine
end HeaderBinding
