import HeaderBinding.Spelling.Shape
import HeaderBinding.Proofs.Text.Blank

/-!
# Spellings with nothing to peel off

A spelling is bare if it is its own base. Every spelling without blanks and without pointer and
reference marks is bare, and so are in particular qualified identifiers.
-/

namespace HeaderBinding
namespace Shape

open Text

/-- Nothing can be peeled off the spelling. -/
def IsBare (spelling : String) : Prop :=
  ofSpelling spelling = ⟨spelling, .none, false⟩

theorem IsBare.eq {spelling : String} (bare : IsBare spelling) :
    ofSpelling spelling = ⟨spelling, .none, false⟩ :=
  bare

theorem peelBack_of_none {back : List Char} (unmarked : lastMark? back = none) :
    peelBack back = ⟨[], false, back.reverse⟩ := by
  rw [peelBack]
  split
  · rfl
  · simp_all

theorem peelFront_of_none {s : List Char} (bare : firstKeyword? s = none) :
    peelFront s = ⟨[], false, s⟩ := by
  rw [peelFront]
  split
  · rfl
  · simp_all

theorem length_base_peelBack_le (back : List Char) :
    (peelBack back).base.length ≤ back.length := by
  fun_induction peelBack back with
  | case1 back found => simp
  | case2 back rest inner kind found _ induction =>
      have shorter := length_lt_of_lastMark? found
      exact Nat.le_trans induction (by omega)
  | case3 back rest inner word found _ _ induction =>
      have shorter := length_lt_of_lastMark? found
      exact Nat.le_trans induction (by omega)

theorem length_base_peelFront_le (s : List Char) : (peelFront s).base.length ≤ s.length := by
  fun_induction peelFront s with
  | case1 s found => simp
  | case2 s word rest found inner induction =>
      have shorter := length_lt_of_firstKeyword? found
      exact Nat.le_trans induction (by omega)

theorem trimmed_of_isBare {spelling : String} (bare : IsBare spelling) :
    trimmed spelling = spelling := by
  have base : (peel spelling.toList).base = spelling.toList := by
    simpa [ofSpelling] using congrArg (·.base.toList) bare
  have kept : (peel spelling.toList).base.length ≤ (trim spelling.toList).length :=
    calc
      (peel spelling.toList).base.length ≤ (peelEnd (trim spelling.toList)).base.length :=
        length_base_peelFront_le _
      _ ≤ (trim spelling.toList).length := by
        simpa [peelEnd] using length_base_peelBack_le (trim spelling.toList).reverse
  rw [base] at kept
  rw [trimmed, (trim_sublist spelling.toList).eq_of_length_le kept, String.ofList_toList]

/-! ## Spellings without blanks and marks -/

/-- The character is no blank and belongs to no pointer or reference mark. -/
def isPlain (c : Char) : Bool :=
  !isBlank c && !isDeclaratorChar c

section

variable {s : List Char}

theorem trim_of_not_isBlank (unspaced : ∀ c ∈ s, ¬isBlank c) : trim s = s := by
  by_cases empty : s = []
  · rw [empty]
    rfl
  · exact (IsTight.of_not_isBlank empty (by simpa using unspaced)).trim_eq

theorem trim_of_isPlain (plain : ∀ c ∈ s, isPlain c) : trim s = s := by
  apply trim_of_not_isBlank
  intro c member
  have := plain c member
  simp_all [isPlain]

theorem lastMark?_of_isPlain (plain : ∀ c ∈ s, isPlain c) : lastMark? s = none := by
  have no_declarator : lastDeclarator? s = none := by
    have uncut (letters : List Char) (mark_mem : ∃ c ∈ letters, isDeclaratorChar c) :
        dropFront? letters s = none := by
      rw [Option.eq_none_iff_forall_ne_some]
      intro rest split
      obtain ⟨c, member, mark⟩ := mark_mem
      rw [dropFront?_eq_some] at split
      have := plain c (by simp [split, member])
      simp [isPlain, mark] at this
    simp [lastDeclarator?, uncut ['&', '&'] ⟨'&', List.mem_cons_self, rfl⟩,
      uncut ['&'] ⟨'&', List.mem_cons_self, rfl⟩, uncut ['*'] ⟨'*', List.mem_cons_self, rfl⟩]
  have no_qualifier (word : Qualifier) : lastQualifier? word s = none := by
    simp only [lastQualifier?, Option.map_eq_none_iff, Option.filter_eq_none_iff,
      dropFront?_eq_some]
    rintro rest rfl
    have rest_plain : ∀ c ∈ rest, isPlain c := fun c member => plain c (by simp [member])
    cases rest with
    | nil => simp [endsQualified]
    | cons c rest =>
        have := rest_plain c (by simp)
        simp_all [endsQualified, isPlain]
  simp [lastMark?, no_declarator, no_qualifier]

theorem firstKeyword?_of_isPlain (plain : ∀ c ∈ s, isPlain c) : firstKeyword? s = none := by
  rw [firstKeyword?, List.findSome?_eq_none_iff]
  intro word _
  simp only [dropFrontWord?, Option.map_eq_none_iff, Option.filter_eq_none_iff,
    dropFront?_eq_some]
  rintro rest rfl
  have rest_plain : ∀ c ∈ rest, isPlain c := fun c member => plain c (by simp [member])
  cases rest with
  | nil => simp [startsBlank]
  | cons c rest =>
      have := rest_plain c (by simp)
      simp_all [startsBlank, isPlain]

end

theorem trimmed_of_not_isBlank {spelling : String}
    (unspaced : ∀ c ∈ spelling.toList, ¬isBlank c) : trimmed spelling = spelling := by
  rw [trimmed, trim_of_not_isBlank unspaced, String.ofList_toList]

/-- A spelling without blanks and marks is bare. -/
theorem isBare_of_isPlain {spelling : String} (plain : ∀ c ∈ spelling.toList, isPlain c) :
    IsBare spelling := by
  have back_plain : ∀ c ∈ spelling.toList.reverse, isPlain c :=
    fun c member => plain c (by simpa using member)
  have marks : peelEnd spelling.toList = ⟨[], false, spelling.toList⟩ := by
    rw [peelEnd, peelBack_of_none (lastMark?_of_isPlain back_plain), List.reverse_reverse]
  have words : peelFront spelling.toList = ⟨[], false, spelling.toList⟩ :=
    peelFront_of_none (firstKeyword?_of_isPlain plain)
  simp [IsBare, ofSpelling, peel, trim_of_isPlain plain, marks, words, indirectionOf]

end Shape
end HeaderBinding
