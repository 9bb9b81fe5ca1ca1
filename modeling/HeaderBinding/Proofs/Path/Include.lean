import HeaderBinding.Path.Include
import HeaderBinding.Proofs.Path.Join
import Mathlib.Data.List.Basic

/-!
# Headers by their names

A header inside of the base folder is included by the path that leads to it from there, any other
one as given. The names of both kinds are listed together, so a header outside of the folder may
have the name of a header inside, and then one line stands for both. Main statement:
`includeNames_apart_iff`.
-/

namespace HeaderBinding
namespace Path

open Component

/-- The folded header goes on from the folded base with these components, and not up at first. From
a lone dot any header without a root goes on. -/
def IsRemainder (base header : String) (rest : List Component) : Prop :=
  rest.head? ≠ some parent ∧
    (normalize base = "." ∧ isRooted header = false ∧ rest = components (normalize header) ∨
      rest ≠ [] ∧ components (normalize header) = components (normalize base) ++ rest)

/-- The header is below the base. -/
def IsInside (base header : String) : Prop :=
  ∃ rest, IsRemainder base header rest

/-- The path leads from the base to the header, without a root and not up at first. -/
structure LeadsTo (base header path : String) : Prop where
  unrooted : isRooted path = false
  inward : (components path).head? ≠ some parent
  arrives : normalize (join base path) = normalize header

/-- The header has the name: the folded path from the base if it is inside of one, or else its path
as given. -/
def IsIncludedAs (base? : Option String) (header name : String) : Prop :=
  (∃ base ∈ base?, IsInside base header ∧ LeadsTo base header name ∧ normalize name = name) ∨
    (∀ base ∈ base?, ¬IsInside base header) ∧ name = header

/-- The header `outer` is outside of the base and given by the folded path that leads from there to
the header `inner`. -/
def Shadows (base outer inner : String) : Prop :=
  IsInside base inner ∧ ¬IsInside base outer ∧ LeadsTo base inner outer ∧ normalize outer = outer

section

variable {base header name path : String} {names : List String}

theorem below?_eq_some_iff {rest : List Component} :
    below? (normalComponents (components base)) (normalComponents (components header)) =
      some rest ↔ IsRemainder base header rest := by
  have kept : (rest ≠ [] && rest.head? ≠ some parent) = true ↔
      rest ≠ [] ∧ rest.head? ≠ some parent := by simp
  rw [← components_normalize, ← components_normalize, below?, Option.filter_eq_some_iff, kept,
    IsRemainder]
  by_cases dot : normalize base = "."
  · have lone := components_normalize_eq_current_iff.mpr dot
    have last : components (normalize header) = components (normalize base) ++ rest → rest = [] :=
      fun first => eq_nil_of_components_normalize (lone ▸ first)
    have filled := components_normalize_ne_nil header
    simp only [if_pos lone, head?_components_normalize_iff]
    cases isRooted header <;> grind
  · have moved := mt components_normalize_eq_current_iff.mp dot
    rw [if_neg moved, List.isPrefixOf?_eq_some_iff_append_eq]
    grind

/-- What is left of a header are the names of folders below the base, or a lone dot. -/
theorem IsRemainder.exists_names {rest : List Component} (isRest : IsRemainder base header rest) :
    ∃ names : List String, (∀ text ∈ names, IsName text) ∧
      folded header = folded base ++ names.map Component.name ∧ render rest = inwards names := by
  have written {names : List String} (filled : names.map Component.name ≠ []) :
      render (names.map Component.name) = inwards names := by
    rw [inwards, if_neg (mt List.map_eq_nil_iff.mpr filled)]
  obtain ⟨inward, ⟨dot, unrooted, rfl⟩ | ⟨filled, first⟩⟩ := isRest
  · rw [normalize_eq_dot_iff.mp dot]
    obtain ⟨-, still, lone⟩ | ⟨-, filled, all⟩ := components_normalize_cases header
    · exact ⟨[], by simp, still, by rw [lone]; rfl⟩
    · rw [all] at inward ⊢
      obtain ⟨names, isName, names_eq⟩ :=
        exists_names_of_folded_eq (List.nil_append _).symm (.inr unrooted) inward
      rw [names_eq] at filled ⊢
      exact ⟨names, isName, rfl, written filled⟩
  · obtain ⟨-, -, lone⟩ | ⟨-, base_filled, base_all⟩ := components_normalize_cases base
    · rw [lone] at first
      exact absurd (eq_nil_of_components_normalize first) filled
    · obtain ⟨-, -, lone⟩ | ⟨-, -, all⟩ := components_normalize_cases header
      · rw [lone, base_all, List.singleton_eq_append_iff] at first
        simp_all
      · rw [all, base_all] at first
        obtain ⟨names, isName, rfl⟩ := exists_names_of_folded_eq first (.inl base_filled) inward
        exact ⟨names, isName, first, written filled⟩

/-- A folded path without a root that does not lead up at first is one of names. -/
theorem exists_inwards (unrooted : isRooted path = false)
    (inward : (components path).head? ≠ some parent) (normal : normalize path = path) :
    ∃ names : List String, (∀ text ∈ names, IsName text) ∧ path = inwards names := by
  have same := components_normalize path
  rw [normal] at same
  rw [same, normalComponents_components] at inward
  have first : (folded path).head? ≠ some parent := by
    by_cases still : folded path = [] <;> simp_all
  obtain ⟨names, isName, names_eq⟩ :=
    exists_names_of_folded_eq (List.nil_append _).symm (.inr unrooted) first
  refine ⟨names, isName, ?_⟩
  rw [← normal, ← normalize_inwards isName, normalize_eq_iff, names_eq, (inwards_spec isName).2.2]

/-- Folded paths from the base to a header are the same. -/
theorem LeadsTo.eq_inwards (leads : LeadsTo base header path) (normal : normalize path = path)
    (header_eq : folded header = folded base ++ names.map Component.name) :
    path = inwards names := by
  obtain ⟨others, others_isName, rfl⟩ := exists_inwards leads.unrooted leads.inward normal
  have arrives := normalize_eq_iff.mp leads.arrives
  rw [folded_join_inwards others_isName, header_eq, List.append_cancel_left_eq] at arrives
  have others_eq : others = names :=
    List.map_injective_iff.mpr (fun _ _ => Component.name.inj) arrives
  rw [others_eq]

theorem leadsTo_inwards (isName : ∀ text ∈ names, IsName text)
    (header_eq : folded header = folded base ++ names.map Component.name) :
    LeadsTo base header (inwards names) where
  unrooted := (inwards_spec isName).1
  inward := head?_components_inwards isName
  arrives := by rw [normalize_eq_iff, folded_join_inwards isName, header_eq]

theorem includeName_of_isInside (inside : IsInside base header) :
    ∃ names : List String, (∀ text ∈ names, IsName text) ∧
      folded header = folded base ++ names.map Component.name ∧
      includeName (some base) header = inwards names := by
  obtain ⟨rest, isRest⟩ := inside
  obtain ⟨names, isName, header_eq, written⟩ := isRest.exists_names
  refine ⟨names, isName, header_eq, ?_⟩
  simp [includeName, below?_eq_some_iff.mpr isRest, written]

theorem includeName_of_not_isInside (outside : ¬IsInside base header) :
    includeName (some base) header = header := by
  have nothing : below? (normalComponents (components base))
      (normalComponents (components header)) = none := by
    rw [Option.eq_none_iff_forall_ne_some]
    exact fun rest found => outside ⟨rest, below?_eq_some_iff.mp found⟩
  simp [includeName, nothing]

/-- A header has the one name under which it is included. -/
theorem isIncludedAs_iff {base? : Option String} :
    IsIncludedAs base? header name ↔ name = includeName base? header := by
  cases base? with
  | none => simp [IsIncludedAs, includeName]
  | some base =>
      simp only [IsIncludedAs, Option.mem_def, Option.some.injEq, exists_eq_left', forall_eq']
      by_cases inside : IsInside base header
      · obtain ⟨names, isName, header_eq, named⟩ := includeName_of_isInside inside
        rw [named]
        constructor
        · rintro (⟨-, leads, normal⟩ | ⟨outside, -⟩)
          · exact leads.eq_inwards normal header_eq
          · exact absurd inside outside
        · rintro rfl
          exact .inl ⟨inside, leadsTo_inwards isName header_eq, normalize_inwards isName⟩
      · rw [includeName_of_not_isInside inside]
        simp [inside]

theorem IsInside.congr {other : String} (inside : IsInside base header)
    (same : normalize header = normalize other) : IsInside base other := by
  obtain ⟨rest, isRest⟩ := inside
  rw [IsRemainder, ← isRooted_normalize header, same, isRooted_normalize] at isRest
  exact ⟨rest, isRest⟩

/-- Two headers of one name are the same unless one of them shadows the other. -/
theorem normalize_eq_of_isIncludedAs {base? : Option String} {first second : String}
    (first_named : IsIncludedAs base? first name) (second_named : IsIncludedAs base? second name)
    (clear : ∀ base ∈ base?, ¬Shadows base second first ∧ ¬Shadows base first second) :
    normalize first = normalize second := by
  obtain ⟨base, isBase, first_inside, first_leads, normal⟩ | ⟨first_outside, rfl⟩ := first_named
  · obtain ⟨other, isOther, -, second_leads, -⟩ | ⟨second_outside, rfl⟩ := second_named
    · obtain rfl := Option.mem_unique isBase isOther
      exact first_leads.arrives.symm.trans second_leads.arrives
    · exact absurd ⟨first_inside, second_outside base isBase, first_leads, normal⟩
        (clear base isBase).1
  · obtain ⟨base, isBase, second_inside, second_leads, normal⟩ | ⟨-, rfl⟩ := second_named
    · exact absurd ⟨second_inside, first_outside base isBase, second_leads, normal⟩
        (clear base isBase).2
    · rfl

end

theorem mem_includeNames_iff {base? : Option String} {headers : List String} {name : String} :
    name ∈ includeNames base? headers ↔ ∃ header ∈ headers, name = includeName base? header := by
  have grown (names : NameMap Unit) :
      name ∈ headers.foldl (fun names header => names.insert (includeName base? header) ()) names ↔
        name ∈ names ∨ ∃ header ∈ headers, name = includeName base? header := by
    induction headers generalizing names with
    | nil => simp
    | cons header rest induction =>
        rw [List.foldl_cons, induction, Std.ExtTreeMap.mem_insert,
          Std.LawfulEqCmp.compare_eq_iff_eq]
        simp only [List.mem_cons, exists_eq_or_imp]
        tauto
  rw [includeNames, Std.ExtTreeMap.mem_keys, grown]
  simp

theorem pairwise_includeNames (base? : Option String) (headers : List String) :
    (includeNames base? headers).Pairwise (· < ·) :=
  (@Std.ExtTreeMap.ordered_keys String Unit compare _ _).imp compareOfLessAndEq_eq_lt.mp

/-- The names are listed in order, each header has just one, and headers that are not the same keep
names of their own if and only if no header outside of the base shadows a header inside. -/
theorem includeNames_apart_iff (base? : Option String) (headers : List String) :
    (includeNames base? headers).Pairwise (· < ·) ∧
      (∀ header, ∃! name, IsIncludedAs base? header name) ∧
      (∀ name, name ∈ includeNames base? headers ↔
        ∃ header ∈ headers, IsIncludedAs base? header name) ∧
      ((∀ first ∈ headers, ∀ second ∈ headers, ∀ name, IsIncludedAs base? first name →
          IsIncludedAs base? second name → normalize first = normalize second) ↔
        ∀ base ∈ base?, ∀ inner ∈ headers, ∀ outer ∈ headers, ¬Shadows base outer inner) := by
  refine ⟨pairwise_includeNames base? headers, fun header => ?_, fun name => ?_, ?_, ?_⟩
  · exact ⟨_, isIncludedAs_iff.mpr rfl, fun _ named => isIncludedAs_iff.mp named⟩
  · simp only [mem_includeNames_iff, isIncludedAs_iff]
  · rintro apart base rfl inner inner_mem outer outer_mem ⟨inside, outside, leads, normal⟩
    have inner_named : IsIncludedAs (some base) inner outer :=
      .inl ⟨base, rfl, inside, leads, normal⟩
    have outer_named : IsIncludedAs (some base) outer outer := .inr ⟨by simpa using outside, rfl⟩
    exact outside (inside.congr (apart inner inner_mem outer outer_mem _ inner_named outer_named))
  · intro clear first first_mem second second_mem name first_named second_named
    exact normalize_eq_of_isIncludedAs first_named second_named fun base isBase =>
      ⟨clear base isBase first first_mem second second_mem,
        clear base isBase second second_mem first first_mem⟩

/-- Below the folder `inc` the header `inc/a.h` is `a.h`, and so is a header `a.h` beside the
folder. -/
theorem includeNames_drops_shadowed :
    normalize "inc/a.h" ≠ normalize "a.h" ∧
      IsIncludedAs (some "inc") "inc/a.h" "a.h" ∧ IsIncludedAs (some "inc") "a.h" "a.h" ∧
      includeNames (some "inc") ["inc/a.h", "a.h"] = ["a.h"] := by
  refine ⟨by decide, isIncludedAs_iff.mpr (by decide), isIncludedAs_iff.mpr (by decide), ?_⟩
  decide +kernel

end Path
end HeaderBinding
