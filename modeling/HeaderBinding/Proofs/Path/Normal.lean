import HeaderBinding.Path.Basic
import HeaderBinding.Proofs.Text.Piece

/-!
# Normal paths

A path leads from place to place. Folding it gives a path of a plain form that leads to the same
place from anywhere, and folding once is enough. Main statement: `normalize_faithful`.
-/

namespace HeaderBinding
namespace Path

open Component

/-! ## Components as written -/

/-- The text is the name of an entry, as which no other component is written. -/
structure IsName (text : String) : Prop where
  ne_empty : text ≠ ""
  ne_dot : text ≠ "."
  ne_dots : text ≠ ".."
  unslashed : '/' ∉ text.toList

/-- The component leads up or down. -/
def IsStep : Component → Prop
  | root | current => False
  | parent => True
  | name text => IsName text

theorem ofPiece?_text {step : Component} (isStep : IsStep step) :
    ofPiece? step.text = some step := by
  cases step with
  | root | current => cases isStep
  | parent => rfl
  | name text =>
      obtain ⟨ne_empty, ne_dot, ne_dots, -⟩ := isStep
      simp [ofPiece?, Component.text, ne_empty, ne_dot, ne_dots]

theorem isStep_of_ofPiece? {piece : String} {step : Component} (unslashed : '/' ∉ piece.toList)
    (found : ofPiece? piece = some step) : IsStep step := by
  unfold ofPiece? at found
  split at found
  · cases found
  · rename_i kept
    rw [not_or] at kept
    split at found
    · obtain rfl := Option.some.inj found
      trivial
    · rename_i ne_dots
      obtain rfl := Option.some.inj found
      exact ⟨kept.1, kept.2, ne_dots, unslashed⟩

theorem IsStep.text_ne {step : Component} (isStep : IsStep step) :
    step.text ≠ "" ∧ step.text ≠ "." := by
  cases step with
  | root | current => cases isStep
  | parent => decide
  | name text => exact ⟨isStep.ne_empty, isStep.ne_dot⟩

theorem IsStep.unslashed {step : Component} (isStep : IsStep step) : '/' ∉ step.text.toList := by
  cases step with
  | root | current => cases isStep
  | parent => decide
  | name text => exact IsName.unslashed isStep

/-- The components of a path that lead up or down. -/
def stepsOf (path : String) : List Component :=
  (piecesOf path).filterMap ofPiece?

theorem isStep_of_mem_stepsOf (path : String) : ∀ step ∈ stepsOf path, IsStep step := by
  intro step listed
  obtain ⟨piece, piece_mem, found⟩ := List.mem_filterMap.mp listed
  obtain ⟨letters, letters_mem, rfl⟩ := List.mem_map.mp piece_mem
  refine isStep_of_ofPiece? ?_ found
  rw [String.toList_ofList]
  exact Text.notMem_of_mem_pieces letters letters_mem

section

variable {steps : List Component}

theorem isRooted_eq_true_iff {path : String} :
    isRooted path = true ↔ ∃ rest, path.toList = '/' :: rest := by
  rw [isRooted, beq_iff_eq, List.head?_eq_some_iff]

/-- Before the slash of the root there is an empty piece. -/
theorem piecesOf_root (path : String) : piecesOf ("/" ++ path) = "" :: piecesOf path := by
  simp [piecesOf, Text.pieces]

theorem head?_piecesOf_of_isRooted {path : String} (rooted : isRooted path = true) :
    (piecesOf path).head? = some "" := by
  obtain ⟨rest, letters⟩ := isRooted_eq_true_iff.mp rooted
  rw [piecesOf, letters, Text.pieces, if_pos rfl]
  rfl

theorem piecesOf_intercalate (isStep : ∀ step ∈ steps, IsStep step) (filled : steps ≠ []) :
    piecesOf ("/".intercalate (steps.map Component.text)) = steps.map Component.text := by
  have slash : "/".toList = ['/'] := rfl
  rw [piecesOf, String.toList_intercalate, List.map_map, slash,
    Text.pieces_intercalate (by simpa using filled)]
  · simp
  · intro part listed
    obtain ⟨step, step_mem, rfl⟩ := List.mem_map.mp listed
    exact (isStep step step_mem).unslashed

theorem filterMap_ofPiece?_map_text (isStep : ∀ step ∈ steps, IsStep step) :
    (steps.map Component.text).filterMap ofPiece? = steps := by
  rw [List.filterMap_map]
  calc
    steps.filterMap (ofPiece? ∘ Component.text) = steps.filterMap some :=
      List.filterMap_congr fun step listed => ofPiece?_text (isStep step listed)
    _ = steps := List.filterMap_some

/-- The root of a path is its first component. -/
theorem components_root (path : String) : components ("/" ++ path) = root :: stepsOf path := by
  have rooted : isRooted ("/" ++ path) = true :=
    isRooted_eq_true_iff.mpr ⟨_, String.toList_append⟩
  have dropped : ofPiece? "" = none := rfl
  rw [components, if_pos rooted, piecesOf_root, List.filterMap_cons_none dropped, stepsOf]

/-- Components that lead up or down are those of a path without root. -/
theorem components_intercalate (isStep : ∀ step ∈ steps, IsStep step) (filled : steps ≠ []) :
    components ("/".intercalate (steps.map Component.text)) = steps := by
  have pieces := piecesOf_intercalate isStep filled
  obtain ⟨first, rest, steps_eq⟩ := List.exists_cons_of_ne_nil filled
  obtain ⟨ne_empty, ne_dot⟩ := (isStep first (by simp [steps_eq])).text_ne
  have head : (piecesOf ("/".intercalate (steps.map Component.text))).head? = some first.text := by
    rw [pieces, steps_eq]
    rfl
  have unrooted : ¬isRooted ("/".intercalate (steps.map Component.text)) = true := by
    intro rooted
    rw [head?_piecesOf_of_isRooted rooted] at head
    exact ne_empty (Option.some.inj head).symm
  have undotted : ¬some first.text = some "." := fun same => ne_dot (Option.some.inj same)
  rw [components, head, if_neg unrooted, if_neg undotted, pieces,
    filterMap_ofPiece?_map_text isStep]

theorem normalComponents_eq (filled : foldOnto [] steps ≠ []) :
    normalComponents steps = foldOnto [] steps := by
  rw [normalComponents]
  split
  · rename_i empty
    exact absurd empty filled
  · rfl

end

theorem foldOnto_components (path : String) :
    foldOnto [] (components path) =
      foldOnto (if isRooted path then [root] else []) (stepsOf path) := by
  rw [components, ← stepsOf]
  split
  · rfl
  · split <;> rfl

/-! ## Routes -/

/-- The place that a component leads to. A place is a list of folders, the innermost first. -/
def lead (place : List String) : Component → List String
  | root => []
  | current => place
  | parent => place.tail
  | name text => text :: place

/-- A path of the plain form by its parts. -/
structure Route where
  isRooted : Bool
  /-- How often it leads up at first. -/
  ups : Nat
  /-- The names that it leads to after that, the last one first. -/
  names : List String
  ups_eq_zero : isRooted = true → ups = 0
  isName_of_mem : ∀ text ∈ names, IsName text

namespace Route

/-- The components of a route that lead up or down. -/
def moves (route : Route) : List Component :=
  List.replicate route.ups parent ++ route.names.reverse.map name

/-- The components of a route. -/
def steps (route : Route) : List Component :=
  (if route.isRooted then [root] else []) ++ route.moves

/-- The route as written. -/
def text (route : Route) : String :=
  (if route.isRooted then "/" else "") ++
    "/".intercalate (List.replicate route.ups ".." ++ route.names.reverse)

/-- The place that a route leads to. -/
def goto (route : Route) (place : List String) : List String :=
  route.names ++ if route.isRooted then [] else place.drop route.ups

/-- The route that has not led anywhere yet. -/
def start (isRooted : Bool) : Route :=
  ⟨isRooted, 0, [], fun _ => rfl, by simp⟩

theorem reverse_steps (route : Route) :
    route.steps.reverse = route.names.map name ++
      (List.replicate route.ups parent ++ if route.isRooted then [root] else []) := by
  cases rooted : route.isRooted <;> simp [steps, moves, rooted, List.map_reverse]

/-- A component that leads up or down makes a route from a route. -/
theorem exists_foldOnto_cons (route : Route) {step : Component} (isStep : IsStep step) :
    ∃ next : Route, next.isRooted = route.isRooted ∧
      (∀ rest, foldOnto route.steps.reverse (step :: rest) = foldOnto next.steps.reverse rest) ∧
      ∀ place, next.goto place = lead (route.goto place) step := by
  obtain ⟨isRooted, ups, names, ups_eq, isName⟩ := route
  simp only [reverse_steps]
  cases step with
  | root | current => cases isStep
  | name text =>
      have all : ∀ other ∈ text :: names, IsName other :=
        List.forall_mem_cons.mpr ⟨isStep, isName⟩
      exact ⟨⟨isRooted, ups, text :: names, ups_eq, all⟩, rfl, fun _ => rfl, fun _ => rfl⟩
  | parent =>
      cases names with
      | cons text outer =>
          have all := (List.forall_mem_cons.mp isName).2
          exact ⟨⟨isRooted, ups, outer, ups_eq, all⟩, rfl, fun _ => rfl, fun _ => rfl⟩
      | nil =>
          cases isRooted with
          | true =>
              obtain rfl := ups_eq rfl
              exact ⟨start true, rfl, fun _ => rfl, fun _ => rfl⟩
          | false =>
              refine ⟨⟨false, ups + 1, [], by simp, by simp⟩, rfl, fun rest => ?_, fun place => ?_⟩
              · cases ups <;> rfl
              · simp [goto, lead]

/-- Components that lead up or down make a route from a route. -/
theorem exists_foldOnto (route : Route) {steps : List Component}
    (isStep : ∀ step ∈ steps, IsStep step) :
    ∃ last : Route, last.isRooted = route.isRooted ∧
      foldOnto route.steps.reverse steps = last.steps ∧
      ∀ place, last.goto place = steps.foldl lead (route.goto place) := by
  induction steps generalizing route with
  | nil => exact ⟨route, rfl, by rw [foldOnto, List.reverse_reverse], fun _ => rfl⟩
  | cons step rest induction =>
      rw [List.forall_mem_cons] at isStep
      obtain ⟨next, next_rooted, folded, led⟩ := route.exists_foldOnto_cons isStep.1
      obtain ⟨last, last_rooted, all_folded, all_led⟩ := induction next isStep.2
      refine ⟨last, last_rooted.trans next_rooted, by rw [folded, all_folded], fun place => ?_⟩
      rw [all_led, led, List.foldl_cons]

theorem foldl_lead_moves (route : Route) (place : List String) :
    route.moves.foldl lead place = route.names ++ place.drop route.ups := by
  have up (count : Nat) (place : List String) :
      (List.replicate count parent).foldl lead place = place.drop count := by
    induction count generalizing place with
    | zero => rfl
    | succ count induction =>
        rw [List.replicate_succ, List.foldl_cons, induction, lead, List.drop_tail]
  have down (names place : List String) :
      (names.reverse.map name).foldl lead place = names ++ place := by
    induction names with
    | nil => rfl
    | cons text outer induction =>
        rw [List.reverse_cons, List.map_append, List.foldl_append, induction]
        rfl
  rw [moves, List.foldl_append, up, down]

/-- A route leads where its components do. -/
theorem foldl_lead_steps (route : Route) (place : List String) :
    route.steps.foldl lead place = route.goto place := by
  rw [steps, List.foldl_append, foldl_lead_moves, goto]
  cases rooted : route.isRooted with
  | true => simp [lead]
  | false => rfl

theorem foldOnto_replicate (folded count : Nat) (rest : List Component) :
    foldOnto (List.replicate folded parent) (List.replicate count parent ++ rest) =
      foldOnto (List.replicate (folded + count) parent) rest := by
  induction count generalizing folded with
  | zero => rfl
  | succ count induction =>
      have step (later : List Component) :
          foldOnto (List.replicate folded parent) (parent :: later) =
            foldOnto (List.replicate (folded + 1) parent) later := by
        cases folded <;> rfl
      rw [List.replicate_succ, List.cons_append, step, induction, Nat.add_right_comm]
      rfl

theorem foldOnto_names (stack : List Component) (names : List String) :
    foldOnto stack (names.map name) = stack.reverse ++ names.map name := by
  induction names generalizing stack with
  | nil => simp [foldOnto]
  | cons text inner induction => simp [foldOnto, induction]

/-- Nothing in a route can be folded. -/
theorem foldOnto_steps (route : Route) : foldOnto [] route.steps = route.steps := by
  rw [steps, moves]
  cases rooted : route.isRooted with
  | true =>
      rw [route.ups_eq_zero rooted]
      exact foldOnto_names [root] _
  | false =>
      have folded := foldOnto_replicate 0 route.ups (route.names.reverse.map name)
      rw [Nat.zero_add, foldOnto_names, List.reverse_replicate] at folded
      exact folded

/-! ## Routes as written -/

theorem isStep_of_mem_moves (route : Route) : ∀ step ∈ route.moves, IsStep step := by
  intro step listed
  rcases List.mem_append.mp listed with up | down
  · rw [List.eq_of_mem_replicate up]
    trivial
  · obtain ⟨text, text_mem, rfl⟩ := List.mem_map.mp down
    exact route.isName_of_mem text (List.mem_reverse.mp text_mem)

theorem text_eq (route : Route) :
    route.text =
      (if route.isRooted then "/" else "") ++ "/".intercalate (route.moves.map Component.text) := by
  have down : (route.names.reverse.map name).map Component.text = route.names.reverse := by
    rw [List.map_map]
    exact List.map_id'' (fun _ => rfl) _
  rw [text, moves, List.map_append, List.map_replicate, down]
  rfl

theorem render_steps (route : Route) : render route.steps = route.text := by
  rw [text_eq, steps]
  cases route.isRooted with
  | true => rfl
  | false =>
      have isStep := route.isStep_of_mem_moves
      cases moves_eq : route.moves with
      | nil => rfl
      | cons step rest =>
          rw [moves_eq, List.forall_mem_cons] at isStep
          cases step with
          | root | current => cases isStep.1
          | parent | name => exact (String.empty_append).symm

/-- The components of a route can be read off it, unless it leads nowhere. -/
theorem components_text (route : Route) (filled : route.steps ≠ []) :
    components route.text = route.steps := by
  have isStep := route.isStep_of_mem_moves
  rw [steps] at filled
  rw [text_eq, steps]
  cases rooted : route.isRooted with
  | true =>
      rw [if_pos rfl, if_pos rfl, components_root]
      by_cases bare : route.moves = []
      · rw [bare]
        decide
      · rw [stepsOf, piecesOf_intercalate isStep bare, filterMap_ofPiece?_map_text isStep]
        rfl
  | false =>
      rw [rooted] at filled
      rw [if_neg Bool.false_ne_true, if_neg Bool.false_ne_true, String.empty_append,
        components_intercalate isStep filled]
      rfl

end Route

/-! ## Walking -/

/-- The place that a piece of a path leads to. At the root there is no way up. -/
def enter (place : List String) (piece : String) : List String :=
  if piece = "" ∨ piece = "." then place
  else if piece = ".." then place.tail
  else piece :: place

/-- The place that a path leads to, going from folder to folder. -/
def walk (place : List String) (path : String) : List String :=
  (piecesOf path).foldl enter (if isRooted path then [] else place)

theorem enter_eq (place : List String) (piece : String) :
    enter place piece = (ofPiece? piece).elim place (lead place) := by
  rw [enter, ofPiece?]
  split
  · rfl
  · split <;> rfl

theorem walk_eq_foldl_stepsOf (place : List String) (path : String) :
    walk place path = (stepsOf path).foldl lead (if isRooted path then [] else place) := by
  rw [walk, stepsOf, List.foldl_filterMap]
  congr 1
  funext place piece
  rw [enter_eq]
  cases ofPiece? piece <;> rfl

theorem walk_eq_foldl_components (place : List String) (path : String) :
    walk place path = (components path).foldl lead place := by
  rw [walk_eq_foldl_stepsOf, components, ← stepsOf]
  split
  · rfl
  · split <;> rfl

/-! ## Normal paths -/

/-- The path is a dot, or a root, if there is one, or else any number of `..`, and then names. -/
def IsNormal (path : String) : Prop :=
  path = "." ∨ path ≠ "" ∧ ∃ route : Route, path = route.text

theorem exists_route (path : String) : ∃ route : Route,
    foldOnto [] (components path) = route.steps ∧ ∀ place, route.goto place = walk place path := by
  let start := Route.start (isRooted path)
  have begun : start.steps.reverse = if isRooted path then [root] else [] := by
    simp only [start, Route.reverse_steps]
    rfl
  obtain ⟨route, -, folded, led⟩ := start.exists_foldOnto (isStep_of_mem_stepsOf path)
  refine ⟨route, by rw [foldOnto_components, ← begun, folded], fun place => ?_⟩
  rw [led, walk_eq_foldl_stepsOf]
  rfl

/-- A folded path is normal, folding it again changes nothing, and it leads to the same place as the
path, whatever place they lead from. -/
theorem normalize_faithful (path : String) :
    IsNormal (normalize path) ∧ normalize (normalize path) = normalize path ∧
      ∀ place, walk place (normalize path) = walk place path := by
  obtain ⟨route, folded, led⟩ := exists_route path
  by_cases still : route.steps = []
  · have dot : normalize path = "." := by
      rw [normalize, normalComponents, folded, still]
      rfl
    refine ⟨.inl dot, by rw [dot]; decide, fun place => ?_⟩
    rw [dot, ← led, ← route.foldl_lead_steps, still]
    rfl
  · have components_eq := route.components_text still
    have text : normalize path = route.text := by
      rw [normalize, normalComponents_eq (folded ▸ still), folded, route.render_steps]
    have filled : route.text ≠ "" := by
      intro empty
      rw [empty] at components_eq
      exact still components_eq.symm
    refine ⟨.inr ⟨text ▸ filled, route, text⟩, ?_, fun place => ?_⟩
    · have unfolded := route.foldOnto_steps
      have refolded : foldOnto [] route.steps ≠ [] := by rwa [unfolded]
      rw [text, normalize, components_eq, normalComponents_eq refolded, unfolded,
        route.render_steps]
    · rw [text, walk_eq_foldl_components, components_eq, route.foldl_lead_steps, led]

end Path
end HeaderBinding
