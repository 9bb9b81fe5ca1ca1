import HeaderBinding.Proofs.Path.Normal

/-!
# Folding joined paths

To fold a path from a folder on is to fold the path of the folder and to go on from there. Paths of
nothing but names can only be appended.
-/

namespace HeaderBinding

namespace Text

variable {separator : Char}

theorem pieces_ne_nil (s : List Char) : pieces separator s ≠ [] := by
  cases s with
  | nil => simp [pieces]
  | cons c rest =>
      rw [pieces]
      split
      · simp
      · split <;> simp

/-- At a separator the pieces fall apart. -/
theorem pieces_append_separator (s rest : List Char) :
    pieces separator (s ++ separator :: rest) = pieces separator s ++ pieces separator rest := by
  induction s with
  | nil => simp [pieces]
  | cons c front induction =>
      rw [List.cons_append, pieces, pieces, induction]
      split
      · rfl
      · obtain ⟨piece, later, parts⟩ := List.exists_cons_of_ne_nil (pieces_ne_nil front)
        rw [parts]
        rfl

end Text

namespace Path

open Component

/-! ## Folding -/

/-- The components of a path, folded. There is none if it leads nowhere else. -/
def folded (path : String) : List Component :=
  foldOnto [] (components path)

theorem normalComponents_components (path : String) :
    normalComponents (components path) = if folded path = [] then [current] else folded path := by
  rw [folded, normalComponents]
  split <;> simp_all

section

variable {path other file : String} {names : List String}

theorem exists_route_folded (path : String) :
    ∃ route : Route, route.isRooted = isRooted path ∧ folded path = route.steps := by
  obtain ⟨route, rooted, all_folded, -⟩ :=
    (Route.start (isRooted path)).exists_foldOnto (isStep_of_mem_stepsOf path)
  refine ⟨route, rooted, ?_⟩
  rw [folded, foldOnto_components, ← all_folded, Route.reverse_steps]
  rfl

theorem current_notMem_folded (path : String) : current ∉ folded path := by
  obtain ⟨route, -, steps⟩ := exists_route_folded path
  rw [steps, Route.steps, List.mem_append, not_or]
  constructor
  · split <;> simp
  · exact fun listed => route.isStep_of_mem_moves _ listed

/-- The folded components can be read off the folded path. -/
theorem components_normalize (path : String) :
    components (normalize path) = normalComponents (components path) := by
  obtain ⟨route, -, steps⟩ := exists_route_folded path
  rw [normalize, normalComponents_components, steps]
  split
  · decide
  · rename_i filled
    rw [route.render_steps, route.components_text filled]

theorem normalize_eq_iff : normalize path = normalize other ↔ folded path = folded other := by
  constructor
  · intro same
    have normal := congrArg components same
    rw [components_normalize, components_normalize, normalComponents_components,
      normalComponents_components] at normal
    have moved (path : String) : folded path ≠ [current] := fun still =>
      current_notMem_folded path (still ▸ List.mem_singleton_self _)
    split at normal <;> split at normal
    · simp_all
    · exact absurd normal.symm (moved _)
    · exact absurd normal (moved _)
    · exact normal
  · intro same
    rw [normalize, normalize, normalComponents_components, normalComponents_components, same]

theorem isRooted_iff : isRooted path = true ↔ (components path).head? = some root := by
  rw [components]
  split
  · simp_all
  · rename_i unrooted
    have none : (stepsOf path).head? ≠ some root := fun first =>
      isStep_of_mem_stepsOf path root (List.mem_of_mem_head? first)
    rw [stepsOf] at none
    split <;> simp_all

theorem isRooted_normalize (path : String) : isRooted (normalize path) = isRooted path := by
  obtain ⟨route, rooted, steps⟩ := exists_route_folded path
  have none : route.moves.head? ≠ some root := fun first =>
    route.isStep_of_mem_moves root (List.mem_of_mem_head? first)
  rw [Bool.eq_iff_iff, isRooted_iff, components_normalize, normalComponents_components, steps,
    ← rooted, Route.steps]
  cases route.isRooted with
  | true => simp
  | false => by_cases still : route.moves = [] <;> simp_all

theorem normalize_eq_dot_iff : normalize path = "." ↔ folded path = [] := by
  have dot : normalize "." = "." ∧ folded "." = [] := by decide
  rw [← dot.2, ← normalize_eq_iff, dot.1]

/-- A folded path is a lone dot or has no dot. -/
theorem components_normalize_cases (path : String) :
    normalize path = "." ∧ folded path = [] ∧ components (normalize path) = [current] ∨
      normalize path ≠ "." ∧ folded path ≠ [] ∧ components (normalize path) = folded path := by
  rw [components_normalize, normalComponents_components, Ne, normalize_eq_dot_iff]
  by_cases still : folded path = [] <;> simp [still]

theorem components_normalize_ne_nil (path : String) : components (normalize path) ≠ [] := by
  obtain ⟨-, -, lone⟩ | ⟨-, filled, all⟩ := components_normalize_cases path
  · simp [lone]
  · rwa [all]

/-- Nothing follows a dot in a folded path. -/
theorem eq_nil_of_components_normalize {rest : List Component}
    (first : components (normalize path) = current :: rest) : rest = [] := by
  obtain ⟨-, -, lone⟩ | ⟨-, -, all⟩ := components_normalize_cases path
  · simp_all
  · have listed : current ∈ folded path := by simp [← all, first]
    exact absurd listed (current_notMem_folded path)

theorem components_normalize_eq_current_iff :
    components (normalize path) = [current] ↔ normalize path = "." := by
  obtain ⟨dot, -, lone⟩ | ⟨moved, -, all⟩ := components_normalize_cases path
  · exact iff_of_true lone dot
  · refine iff_of_false (fun same => ?_) moved
    exact current_notMem_folded path (all ▸ same ▸ List.mem_singleton_self current)

theorem head?_components_normalize_iff :
    (components (normalize path)).head? = some root ↔ isRooted path = true := by
  rw [← isRooted_iff, isRooted_normalize]

/-! ## Joining -/

theorem foldOnto_append (stack first second : List Component) :
    foldOnto stack (first ++ second) = foldOnto (foldOnto stack first).reverse second := by
  fun_induction foldOnto stack first with
  | case1 => simp
  | _ => simp_all [foldOnto]

/-- What stands on both sides of a slash stands for its own components. -/
theorem stepsOf_separated {front back : List Char} (path_eq : path.toList = front ++ '/' :: back) :
    stepsOf path = stepsOf (String.ofList front) ++ stepsOf (String.ofList back) := by
  simp only [stepsOf, piecesOf, path_eq, String.toList_ofList, Text.pieces_append_separator,
    List.map_append, List.filterMap_append]

theorem stepsOf_join (unrooted : isRooted file = false) :
    stepsOf (join path file) = stepsOf path ++ stepsOf file ∧
      isRooted (join path file) = isRooted path := by
  have empty : stepsOf "" = [] := by decide
  unfold join
  split
  · rename_i alone
    obtain rfl : path = "" := by simpa [unrooted] using alone
    exact ⟨by rw [empty, List.nil_append], unrooted⟩
  · rename_i continued
    have filled : path ≠ "" := by simpa [unrooted] using continued
    have begins (later : String) : isRooted (path ++ later) = isRooted path := by
      obtain ⟨c, letters, path_eq⟩ :=
        List.exists_cons_of_ne_nil (mt String.toList_eq_nil_iff.mp filled)
      simp [isRooted, path_eq]
    split
    · rename_i closed
      obtain ⟨front, path_eq⟩ := List.getLast?_eq_some_iff.mp closed
      have joined : (path ++ file).toList = front ++ '/' :: file.toList := by simp [path_eq]
      have closed_steps := stepsOf_separated path_eq
      rw [String.ofList_nil, empty, List.append_nil] at closed_steps
      exact ⟨by rw [stepsOf_separated joined, closed_steps, String.ofList_toList], begins file⟩
    · have joined : (path ++ "/" ++ file).toList = path.toList ++ '/' :: file.toList := by simp
      refine ⟨?_, by rw [String.append_assoc, begins]⟩
      rw [stepsOf_separated joined, String.ofList_toList, String.ofList_toList]

theorem folded_join (unrooted : isRooted file = false) :
    folded (join path file) = foldOnto (folded path).reverse (stepsOf file) := by
  obtain ⟨steps, rooted⟩ := @stepsOf_join path file unrooted
  rw [folded, foldOnto_components, steps, rooted, foldOnto_append, ← foldOnto_components, folded]

/-! ## Paths of names -/

/-- In a folded path only names come after what neither leads up nor is the root. -/
theorem exists_names_of_folded_eq {front rest : List Component}
    (parts : folded path = front ++ rest) (inner : front ≠ [] ∨ isRooted path = false)
    (inward : rest.head? ≠ some parent) :
    ∃ names : List String, (∀ text ∈ names, IsName text) ∧ rest = names.map name := by
  obtain ⟨route, rooted, steps⟩ := exists_route_folded path
  have isName (text : String) (listed : text ∈ route.names.reverse) : IsName text :=
    route.isName_of_mem text (List.mem_reverse.mp listed)
  rw [steps, Route.steps, Route.moves, ← List.append_assoc, List.append_eq_append_iff] at parts
  obtain ⟨between, -, names_eq⟩ | ⟨between, ups_eq, rest_eq⟩ := parts
  · obtain ⟨early, late, reverse_eq, -, late_eq⟩ := List.map_eq_append_iff.mp names_eq
    refine ⟨late, fun text listed => isName text ?_, late_eq.symm⟩
    exact reverse_eq ▸ List.mem_append_right early listed
  · cases between with
    | nil => exact ⟨_, isName, rest_eq⟩
    | cons step later =>
        exfalso
        rw [rest_eq] at inward
        rw [← rooted] at inner
        cases is_rooted : route.isRooted with
        | true =>
            rw [route.ups_eq_zero is_rooted] at ups_eq
            simp_all [List.singleton_eq_append_iff]
        | false =>
            have listed : step ∈ List.replicate route.ups parent := by simp_all
            rw [List.eq_of_mem_replicate listed] at inward
            exact inward rfl

/-- The path into folders with the given names, one in the other. -/
def inwards (names : List String) : String :=
  render (if names = [] then [current] else names.map name)

/-- Such a path is folded, and only its names are in it. -/
theorem inwards_spec (isName : ∀ text ∈ names, IsName text) :
    isRooted (inwards names) = false ∧ stepsOf (inwards names) = names.map name ∧
      folded (inwards names) = names.map name := by
  have isStep : ∀ step ∈ names.map name, IsStep step := by
    rintro _ listed
    obtain ⟨text, text_mem, rfl⟩ := List.mem_map.mp listed
    exact isName text text_mem
  have unrooted_steps :
      isRooted (inwards names) = false ∧ stepsOf (inwards names) = names.map name := by
    cases names with
    | nil => decide
    | cons first rest =>
        let steps := (first :: rest).map name
        have filled : steps ≠ [] := List.cons_ne_nil _ _
        have written : inwards (first :: rest) = "/".intercalate (steps.map Component.text) := rfl
        rw [written]
        constructor
        · rw [← Bool.not_eq_true, isRooted_iff, components_intercalate isStep filled]
          simp
        · rw [stepsOf, piecesOf_intercalate isStep filled, filterMap_ofPiece?_map_text isStep]
  obtain ⟨unrooted, steps⟩ := unrooted_steps
  refine ⟨unrooted, steps, ?_⟩
  rw [folded, foldOnto_components, unrooted, steps]
  exact Route.foldOnto_names [] names

theorem normalize_inwards (isName : ∀ text ∈ names, IsName text) :
    normalize (inwards names) = inwards names := by
  obtain ⟨-, -, folded_eq⟩ := inwards_spec isName
  rw [normalize, normalComponents_components, folded_eq, inwards]
  simp

theorem head?_components_inwards (isName : ∀ text ∈ names, IsName text) :
    (components (inwards names)).head? ≠ some parent := by
  have same := components_normalize (inwards names)
  rw [normalize_inwards isName, normalComponents_components, (inwards_spec isName).2.2] at same
  rw [same]
  cases names <;> simp

theorem folded_join_inwards (isName : ∀ text ∈ names, IsName text) :
    folded (join path (inwards names)) = folded path ++ names.map name := by
  obtain ⟨unrooted, steps, -⟩ := inwards_spec isName
  rw [folded_join unrooted, steps, Route.foldOnto_names, List.reverse_reverse]

end

end Path
end HeaderBinding
