import HeaderBinding.Classification
import HeaderBinding.Proofs.Spelling.Peeling

/-!
# What is left of a spelling

Marks are peeled off the end of a spelling before words are peeled off its front. No word at the
front hides a mark, as what could be peeled off the end without the word could be peeled off with
it. So nothing can be peeled off what is left, and the classifier takes it as it is. Main statement:
`ofSpelling_base`.
-/

namespace HeaderBinding
namespace Shape

open Text

section

variable {s back rest first second : List Char} {mark : Mark} {word : Keyword}

/-! ## What a step leaves -/

/-- Without the blanks at its front, the end of a text has none at its ends. -/
theorem trim_trimStart_append (trimmed : trim (first ++ second) = first ++ second) :
    trim (trimStart second) = trimStart second := by
  obtain ⟨gap, split⟩ : trimStart second <:+ second := List.dropWhile_suffix isBlank
  have front : trimStart (trimStart second) = trimStart second :=
    List.dropWhile_idempotent isBlank second
  rw [trim, front]
  apply trimEnd_eq_self
  intro c final
  have kept_ne : trimStart second ≠ [] := by
    intro empty
    rw [empty] at final
    cases final
  have whole : first ++ second = (first ++ gap) ++ trimStart second := by
    rw [List.append_assoc, split]
  have tight : IsTight (first ++ second) := .of_trim_eq (by simp [whole, kept_ne]) trimmed
  apply tight.last
  rwa [whole, List.getLast?_append_of_ne_nil _ kept_ne]

theorem trim_reverse (trimmed : trim s = s) : trim s.reverse = s.reverse := by
  by_cases empty : s = []
  · rw [empty]
    rfl
  · exact (IsTight.of_trim_eq empty trimmed).reverse.trim_eq

theorem exists_of_lastMark? (found : lastMark? back = some (mark, rest)) :
    ∃ letters later, back = letters ++ later ∧ rest = trimStart later := by
  simp only [lastMark?, lastDeclarator?, lastQualifier?, Option.or_eq_some_iff,
    Option.map_eq_some_iff, Option.filter_eq_some_iff, Prod.mk.injEq, dropFront?_eq_some] at found
  rcases found with ((⟨_, split, -, rfl⟩ | ⟨-, _, split, -, rfl⟩) | ⟨-, _, split, -, rfl⟩) |
    ⟨-, ⟨_, ⟨split, -⟩, -, rfl⟩ | ⟨-, _, ⟨split, -⟩, -, rfl⟩⟩
  all_goals exact ⟨_, _, split, rfl⟩

theorem exists_of_firstKeyword? (found : firstKeyword? s = some (word, rest)) :
    ∃ letters later, s = letters ++ later ∧ rest = trimStart later := by
  obtain ⟨other, -, cut⟩ := List.exists_of_findSome?_eq_some found
  simp only [dropFrontWord?, Option.map_eq_some_iff, Option.filter_eq_some_iff, Prod.mk.injEq,
    dropFront?_eq_some] at cut
  obtain ⟨_, ⟨later, ⟨split, -⟩, rfl⟩, -, rfl⟩ := cut
  exact ⟨_, later, split, rfl⟩

/-! ## Marks behind words -/

/-- A qualifier that ends a text ends every text that ends with it. -/
theorem endsQualified_append (ends : endsQualified first) : endsQualified (first ++ second) := by
  rw [endsQualified, Bool.and_eq_true] at ends ⊢
  obtain ⟨parted, solid⟩ := ends
  cases first with
  | nil => cases parted
  | cons c first =>
      refine ⟨parted, ?_⟩
      simp only [Bool.not_eq_true', List.isEmpty_eq_false_iff, trimStart, ne_eq,
        List.dropWhile_eq_nil_iff, List.mem_append] at solid ⊢
      exact fun all_blank => solid fun c listed => all_blank c (.inl listed)

/-- What is beyond the front of a spelling read backwards makes no mark there go away. -/
theorem lastMark?_of_append (unmarked : lastMark? (first ++ second) = none) :
    lastMark? first = none := by
  rw [lastMark?, Option.or_eq_none_iff, Option.or_eq_none_iff] at unmarked ⊢
  obtain ⟨noDeclarator, noConst, noVolatile⟩ := unmarked
  have noQualifier (word : Qualifier) (absent : lastQualifier? word (first ++ second) = none) :
      lastQualifier? word first = none := by
    rw [lastQualifier?, Option.map_eq_none_iff, Option.filter_eq_none_iff] at absent ⊢
    intro rest split ends
    rw [dropFront?_eq_some] at split
    apply absent (rest ++ second) _ (endsQualified_append ends)
    rw [dropFront?_eq_some, split, List.append_assoc]
  refine ⟨?_, noQualifier .const noConst, noQualifier .volatile noVolatile⟩
  rw [lastDeclarator?_eq_none_iff] at noDeclarator ⊢
  cases first with
  | nil => rfl
  | cons c first => exact noDeclarator

/-! ## What the steps leave -/

theorem peelBack_exhausted (trimmed : trim back = back) :
    trim (peelBack back).base = (peelBack back).base ∧
      lastMark? (peelBack back).base.reverse = none := by
  fun_induction peelBack back with
  | case1 back none =>
      rw [List.reverse_reverse]
      exact ⟨trim_reverse trimmed, none⟩
  | case2 back rest inner kind found _ induction | case3 back rest inner word found _ _ induction =>
      obtain ⟨letters, later, rfl, rfl⟩ := exists_of_lastMark? found
      exact induction (trim_trimStart_append trimmed)

theorem isCore_peelFront (trimmed : trim s = s) (unmarked : lastMark? s.reverse = none) :
    IsCore (peelFront s).base := by
  fun_induction peelFront s with
  | case1 s none => exact ⟨trimmed, unmarked, none⟩
  | case2 s word rest found inner induction =>
      obtain ⟨letters, later, rfl, rfl⟩ := exists_of_firstKeyword? found
      apply induction (trim_trimStart_append trimmed)
      obtain ⟨gap, split⟩ : trimStart later <:+ later := List.dropWhile_suffix isBlank
      rw [← split, List.reverse_append, List.reverse_append, List.append_assoc] at unmarked
      exact lastMark?_of_append unmarked

/-- When everything is peeled off a text, nothing can be peeled off what is left. -/
theorem isCore_base_peel (s : List Char) : IsCore (peel s).base := by
  obtain ⟨trimmed, unmarked⟩ := peelBack_exhausted (trim_reverse (trim_trim s))
  exact isCore_peelFront trimmed unmarked

theorem IsCore.isBare (core : IsCore s) : IsBare (String.ofList s) := by
  have marks : peelEnd s = ⟨[], false, s⟩ := by
    rw [peelEnd, peelBack_of_none core.lastMark?_eq, List.reverse_reverse]
  have words : peelFront s = ⟨[], false, s⟩ := peelFront_of_none core.firstKeyword?_eq
  rw [IsBare, ofSpelling, String.toList_ofList, peel, core.trim_eq, marks]
  dsimp only
  rw [words]
  rfl

end

/-- Taking the base of a spelling apart changes nothing. Where no name stands for another spelling,
the classifier goes on to what the base looks like and does not come upon marks or words again. -/
theorem ofSpelling_base (spelling : String) :
    let base := (ofSpelling spelling).base
    ofSpelling base = ⟨base, .none, false⟩ ∧ (ofSpelling base).isDecorated base = false ∧
      ∀ classifyInner outer, TypeScope.classifyUnknown classifyInner outer base =
        TypeScope.classifyPattern classifyInner outer base := by
  intro base
  have bare : IsBare base := (isCore_base_peel spelling.toList).isBare
  have undecorated : (ofSpelling base).isDecorated base = false := by
    rw [bare.eq, isDecorated, trimmed_of_isBare bare]
    simp
  refine ⟨bare, undecorated, fun classifyInner outer => ?_⟩
  rw [TypeScope.classifyUnknown, undecorated]
  rfl

/-- The last word is never peeled off. -/
example : ofSpelling "const volatile const &" = ⟨"const", .lvalueRef, true⟩ := by
  decide +kernel

end Shape
end HeaderBinding
