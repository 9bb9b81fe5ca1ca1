import HeaderBinding.Proofs.Api.Site
import Mathlib.Data.List.DropRight

/-!
# Which declaration is kept

Headers declare a class many times, and classes with different names may have one flat identifier.
Of the declarations with an identifier those at the end count that are of the class of the last one.
The last of them with a body is kept or, if none has a body, the last one.
-/

namespace HeaderBinding
namespace Api

/-- The declarations with a flat identifier, in their order. -/
def withFlatName (flat : String) (models : List Class) : List Class :=
  models.filter fun model => model.flatName == flat

/-- The class is the one of which `models` has a declaration last. -/
def isNamedAsLast (models : List Class) (model : Class) : Bool :=
  models.getLast?.all fun last => last.qualifiedName = model.qualifiedName

/-- As many declarations at the end of `models` as are of the class of the last one. -/
structure IsLastRun (models run : List Class) : Prop where
  isSuffix : run <:+ models
  named : ∀ model ∈ run, isNamedAsLast models model
  longest : ∀ other, other <:+ models → (∀ model ∈ other, isNamedAsLast models model) →
    other <:+ run

/-- The declarations at the end that are of the class of the last one. -/
def lastRun (models : List Class) : List Class :=
  models.rtakeWhile (isNamedAsLast models)

/-- The last declaration with a body. -/
def lastDefinition? (models : List Class) : Option Class :=
  (models.filter Class.isDefinition).getLast?

/-- The last declaration with a body or, if none has a body, the last one. -/
def preferred? (models : List Class) : Option Class :=
  (lastDefinition? models).or models.getLast?

section

variable {models run : List Class} {model known : Class} {flat : String}

theorem withFlatName_append_singleton (models : List Class) (model : Class) :
    withFlatName flat (models ++ [model]) =
      withFlatName flat models ++ if model.flatName = flat then [model] else [] := by
  rw [withFlatName, List.filter_append, withFlatName]
  by_cases own : model.flatName = flat <;> simp [own]

/-! ## The last declarations of one class -/

theorem isLastRun_lastRun (models : List Class) : IsLastRun models (lastRun models) where
  isSuffix := List.rtakeWhile_suffix _ _
  named _ member := List.mem_rtakeWhile_imp member
  longest := by
    rintro other ⟨before, rfl⟩ named
    have taken : ∀ model ∈ other.reverse, isNamedAsLast (before ++ other) model :=
      fun model member => named model (List.mem_reverse.mp member)
    rw [lastRun, List.rtakeWhile, List.reverse_append, List.takeWhile_append_of_pos taken,
      List.reverse_append, List.reverse_reverse]
    exact List.suffix_append _ _

/-- A declaration of another class begins a new run. -/
theorem lastRun_append_singleton (models : List Class) (model : Class) :
    lastRun (models ++ [model]) =
      (if isNamedAsLast models model then lastRun models else []) ++ [model] := by
  have named : isNamedAsLast (models ++ [model]) =
      fun other => decide (model.qualifiedName = other.qualifiedName) := by
    funext other
    simp [isNamedAsLast]
  rw [lastRun, named, List.rtakeWhile_concat_pos _ _ _ (by simp)]
  congr 1
  cases found : models.getLast? with
  | none =>
      obtain rfl := List.getLast?_eq_none_iff.mp found
      simp [lastRun]
  | some last =>
      by_cases same : last.qualifiedName = model.qualifiedName
      · have alike : isNamedAsLast models =
            fun other => decide (model.qualifiedName = other.qualifiedName) := by
          funext other
          simp [isNamedAsLast, found, same]
        simp [lastRun, alike]
      · obtain ⟨before, rfl⟩ := List.getLast?_eq_some_iff.mp found
        rw [List.rtakeWhile_concat_neg _ _ _ (by simpa [eq_comm] using same)]
        simp [isNamedAsLast, same]

/-! ## The last declaration with a body -/

theorem filter_preferred? (run : List Class) :
    (preferred? run).filter Class.isDefinition = lastDefinition? run := by
  unfold preferred?
  cases found : lastDefinition? run with
  | some definition =>
      have isDefinition := (List.mem_filter.mp (List.mem_of_getLast? found)).2
      simp [isDefinition]
  | none =>
      have none_defined := List.filter_eq_nil_iff.mp (List.getLast?_eq_none_iff.mp found)
      cases last : run.getLast? with
      | none => rfl
      | some model => simp [none_defined model (List.mem_of_getLast? last)]

theorem preferred?_append_singleton (run : List Class) (model : Class) :
    preferred? (run ++ [model]) =
      if model.isDefinition then some model else (lastDefinition? run).or (some model) := by
  simp only [preferred?, lastDefinition?, List.filter_append, List.getLast?_append]
  by_cases isDefinition : model.isDefinition <;> simp [isDefinition]

theorem preferred?_singleton (model : Class) : preferred? [model] = some model := by
  rw [← List.nil_append [model], preferred?_append_singleton]
  exact ite_self _

theorem preferred?_eq_none_iff : preferred? run = none ↔ run = [] := by
  rw [preferred?, Option.or_eq_none_iff, List.getLast?_eq_none_iff]
  refine ⟨And.right, ?_⟩
  rintro rfl
  exact ⟨rfl, rfl⟩

theorem mem_of_preferred? (preferred : preferred? run = some known) : known ∈ run := by
  rcases Option.or_eq_some_iff.mp preferred with definition | ⟨-, last⟩
  · exact (List.mem_filter.mp (List.mem_of_getLast? definition)).1
  · exact List.mem_of_getLast? last

theorem lastRun_eq_nil_iff : lastRun models = [] ↔ models = [] := by
  induction models using List.reverseRecOn with
  | nil => simp [lastRun]
  | append_singleton models model => simp [lastRun_append_singleton]

/-- The declaration that is kept so far has the name of the last one. -/
theorem isNamedAsLast_iff (preferred : preferred? (lastRun models) = some known) :
    isNamedAsLast models model ↔ known.qualifiedName = model.qualifiedName := by
  have named := (isLastRun_lastRun models).named known (mem_of_preferred? preferred)
  cases found : models.getLast? with
  | none =>
      obtain rfl := List.getLast?_eq_none_iff.mp found
      cases preferred
  | some last =>
      simp only [isNamedAsLast, found, Option.all_some, decide_eq_true_eq] at named ⊢
      rw [named]

theorem preferred?_lastRun_append_singleton (models : List Class) (model : Class) :
    preferred? (lastRun (models ++ [model])) =
      some (model.after (preferred? (lastRun models))) := by
  rw [lastRun_append_singleton]
  cases preferred : preferred? (lastRun models) with
  | none =>
      obtain rfl := lastRun_eq_nil_iff.mp (preferred?_eq_none_iff.mp preferred)
      exact preferred?_singleton model
  | some known =>
      have named : isNamedAsLast models model ↔ known.qualifiedName = model.qualifiedName :=
        isNamedAsLast_iff preferred
      by_cases same : known.qualifiedName = model.qualifiedName
      · rw [if_pos (named.mpr same), preferred?_append_singleton, ← filter_preferred?, preferred]
        by_cases body : model.isDefinition <;> by_cases known_body : known.isDefinition <;>
          simp [Class.after, same, body, known_body, Option.filter_some]
      · rw [if_neg (mt named.mp same), List.nil_append, preferred?_singleton]
        simp [Class.after, same]

/-! ## Declarations one after the other -/

theorem getElem?_foldl_keep_eq_preferred? (models : List Class) (flat : String) :
    (models.foldl keep ∅)[flat]? = preferred? (lastRun (withFlatName flat models)) := by
  induction models using List.reverseRecOn with
  | nil => rfl
  | append_singleton models model induction =>
      rw [List.foldl_append, List.foldl_cons, List.foldl_nil, withFlatName_append_singleton]
      by_cases own : model.flatName = flat
      · subst own
        rw [if_pos rfl, getElem?_keep_self, induction, preferred?_lastRun_append_singleton]
      · rw [if_neg own, List.append_nil, getElem?_keep_of_ne own, induction]

/-- If all declarations are of one class, one with a body is kept if there is any. -/
theorem preferred?_lastRun_of_named (named : ∀ model ∈ models, isNamedAsLast models model) :
    preferred? (lastRun models) = preferred? models := by
  rw [lastRun, List.rtakeWhile_eq_self_iff.mpr named]

end

/-- Under a flat identifier the declaration is kept that is preferred among the last ones of one
class. If all with the identifier are of one class, it is the last one with a body, wherever those
without a body stand. Classes with other identifiers do not matter. -/
theorem getElem?_foldl_keep (models : List Class) (flat : String) :
    let declared := withFlatName flat models
    let kept? := (models.foldl keep ∅)[flat]?
    IsLastRun declared (lastRun declared) ∧ kept? = preferred? (lastRun declared) ∧
      (kept? = none ↔ ∀ model ∈ models, model.flatName ≠ flat) ∧
      ((∀ first ∈ declared, ∀ second ∈ declared, first.qualifiedName = second.qualifiedName) →
        (∃ model ∈ declared, model.isDefinition) →
          ∃ kept, kept? = some kept ∧ lastDefinition? declared = some kept ∧ kept.isDefinition) ∧
      ∀ others, withFlatName flat others = declared → (others.foldl keep ∅)[flat]? = kept? := by
  intro declared kept?
  have kept_eq : kept? = preferred? (lastRun declared) :=
    getElem?_foldl_keep_eq_preferred? models flat
  refine ⟨isLastRun_lastRun declared, kept_eq, ?_, ?_, ?_⟩
  · rw [kept_eq, preferred?_eq_none_iff, lastRun_eq_nil_iff]
    simp [declared, withFlatName]
  · rintro alike ⟨model, member, body⟩
    have named : ∀ model ∈ declared, isNamedAsLast declared model := by
      intro other listed
      rw [isNamedAsLast, Option.all_eq_true]
      intro last found
      simpa using alike last (List.mem_of_getLast? found) other listed
    have defined : (declared.filter Class.isDefinition).getLast?.isSome :=
      List.getLast?_isSome.mpr (List.ne_nil_of_mem (List.mem_filter.mpr ⟨member, body⟩))
    obtain ⟨kept, found⟩ := Option.isSome_iff_exists.mp defined
    refine ⟨kept, ?_, found, (List.mem_filter.mp (List.mem_of_getLast? found)).2⟩
    rw [kept_eq, preferred?_lastRun_of_named named, preferred?, lastDefinition?, found]
    rfl
  · intro others same
    rw [getElem?_foldl_keep_eq_preferred?, same, kept_eq]

/-- Declarations of two classes, before and after their bodies, and of a third one that takes the
identifier of the first. -/
def geometryDeclarations : List Class :=
  [{ qualifiedName := "gp::Pnt", isDefinition := true }, { qualifiedName := "gp::Vec" },
    { qualifiedName := "gp_Pnt", isDefinition := true },
    { qualifiedName := "gp::Pnt", isDefinition := true, isAbstract := true },
    { qualifiedName := "gp::Vec", isDefinition := true }, { qualifiedName := "gp::Pnt" },
    { qualifiedName := "gp::Vec" }]

theorem kept_geometryDeclarations :
    (geometryDeclarations.foldl keep ∅)["gp_Pnt"]? =
        some { qualifiedName := "gp::Pnt", isDefinition := true, isAbstract := true } ∧
      ∃ kept, (geometryDeclarations.foldl keep ∅)["gp_Vec"]? = some kept ∧ kept.isDefinition := by
  obtain ⟨-, point, -⟩ := getElem?_foldl_keep geometryDeclarations "gp_Pnt"
  obtain ⟨-, -, -, vector, -⟩ := getElem?_foldl_keep geometryDeclarations "gp_Vec"
  constructor
  · rw [point]
    decide +kernel
  · obtain ⟨kept, found, -, body⟩ := vector (by decide +kernel) (by decide +kernel)
    exact ⟨kept, found, body⟩

end Api
end HeaderBinding
