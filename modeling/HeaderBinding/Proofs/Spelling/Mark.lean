import HeaderBinding.Proofs.Spelling.Shape

/-!
# A further mark at the end of a spelling

A mark written behind a spelling is the outermost one of the whole and leaves everything else that
can be peeled off as it is. So behind a spelling without marks it is the only one, and behind any
other spelling there are at least two.
-/

namespace HeaderBinding
namespace Shape

open Text

/-- A pointer or reference mark. -/
inductive Declarator where
  | pointer
  | lvalueRef
  | rvalueRef
  deriving DecidableEq, Repr

namespace Declarator

/-- The mark as written. -/
def letters : Declarator → List Char
  | pointer => ['*']
  | lvalueRef => ['&']
  | rvalueRef => ['&', '&']

/-- The indirection that the mark alone amounts to. -/
def indirection : Declarator → Indirection
  | pointer => .pointer
  | lvalueRef => .lvalueRef
  | rvalueRef => .rvalueRef

theorem letters_ne_nil (mark : Declarator) : mark.letters ≠ [] := by
  cases mark <;> decide

theorem isBlank_of_mem_letters {mark : Declarator} : ∀ c ∈ mark.letters, isBlank c = false := by
  have none_blank : mark.letters.all (!isBlank ·) := by
    cases mark <;> decide
  intro c member
  simpa using List.all_eq_true.mp none_blank c member

theorem isTight (mark : Declarator) : IsTight mark.letters :=
  .of_not_isBlank mark.letters_ne_nil isBlank_of_mem_letters

theorem indirection_ne_none (mark : Declarator) : mark.indirection ≠ .none := by
  cases mark <;> decide

theorem indirection_ne_multiple (mark : Declarator) : mark.indirection ≠ .multiple := by
  cases mark <;> decide

end Declarator

/-- The spelling with a further mark behind it. -/
def marked (spelling : String) (mark : Declarator) : String :=
  String.ofList (spelling.toList ++ ' ' :: mark.letters)

/-! ## Blanks at the ends -/

theorem ofSpelling_trimmed (spelling : String) :
    ofSpelling (trimmed spelling) = ofSpelling spelling := by
  simp only [ofSpelling, peel, trimmed, String.toList_ofList, trim_trim]

/-- Only blanks at the front of a text go if something else stands at its end. -/
theorem trim_append_letters (s : List Char) (mark : Declarator) :
    trim (s ++ ' ' :: mark.letters) =
      if trimStart s = [] then mark.letters else trimStart s ++ ' ' :: mark.letters := by
  have kept (before : List Char) : trimEnd (before ++ mark.letters) = before ++ mark.letters := by
    apply trimEnd_eq_self
    rw [List.getLast?_append_of_ne_nil _ mark.letters_ne_nil]
    exact mark.isTight.last
  have front : trimStart (' ' :: mark.letters) = mark.letters := by
    cases mark <;> decide
  have split : trimStart (s ++ ' ' :: mark.letters) =
      if (trimStart s).isEmpty then trimStart (' ' :: mark.letters)
      else trimStart s ++ ' ' :: mark.letters :=
    List.dropWhile_append
  rw [trim, split, front]
  by_cases all_blank : trimStart s = []
  · simpa [all_blank] using kept []
  · simpa [all_blank] using kept (trimStart s ++ [' '])

/-- A text with a mark behind it, read backwards: the mark, then blanks, then the text. -/
theorem exists_reverse_trim {s : List Char} (mark : Declarator) :
    ∃ rest, (trim (s ++ ' ' :: mark.letters)).reverse = mark.letters.reverse ++ rest ∧
      rest.head? ≠ some '&' ∧ trimStart rest = (trim s).reverse := by
  rw [trim_append_letters]
  by_cases all_blank : trimStart s = []
  · refine ⟨[], by simp [all_blank], by simp, ?_⟩
    rw [trim, all_blank]
    rfl
  · refine ⟨' ' :: (trimStart s).reverse, by simp [all_blank], by simp, ?_⟩
    have blank : isBlank ' ' = true := by decide
    rw [trimStart, List.dropWhile_cons_of_pos blank, trim, trimEnd, List.reverse_reverse]

/-! ## Peeling -/

theorem lastMark?_declarator {rest : List Char} (mark : Declarator)
    (apart : rest.head? ≠ some '&') :
    lastMark? (mark.letters.reverse ++ rest) =
      some (.declarator mark.indirection, trimStart rest) := by
  simp only [lastMark?, lastDeclarator?]
  cases mark with
  | pointer => simp [Declarator.letters, Declarator.indirection, dropFront?]
  | lvalueRef =>
      -- One more letter of the same kind would make another mark.
      have single : dropFront? ['&'] rest = none := by
        cases rest with
        | nil => rfl
        | cons c rest =>
            have differs : '&' ≠ c := fun same => apart (same ▸ rfl)
            rw [dropFront?, if_neg differs]
      simp [Declarator.letters, Declarator.indirection, dropFront?, single]
  | rvalueRef => simp [Declarator.letters, Declarator.indirection, dropFront?]

theorem peelBack_of_some {back rest : List Char} {mark : Mark}
    (found : lastMark? back = some (mark, rest)) :
    peelBack back =
      match mark with
      | .declarator kind =>
          { peelBack rest with declarators := kind :: (peelBack rest).declarators }
      | .qualifier word =>
          let ofBase := word = .const && !rest.head?.any isDeclaratorChar
          { peelBack rest with isConst := (peelBack rest).isConst || ofBase } := by
  rw [peelBack]
  split
  · simp_all
  · rename_i other later again
    obtain ⟨rfl, rfl⟩ : other = mark ∧ later = rest := by
      simpa [found, eq_comm] using again
    rfl

/-- A mark behind a spelling is peeled off first. -/
theorem peel_marked (spelling : String) (mark : Declarator) :
    peel (marked spelling mark).toList =
      { peel spelling.toList with
        declarators := mark.indirection :: (peel spelling.toList).declarators } := by
  obtain ⟨rest, reversed, apart, before⟩ := exists_reverse_trim (s := spelling.toList) mark
  have found := lastMark?_declarator mark apart
  rw [← reversed, before] at found
  rw [marked, String.toList_ofList, peel, peelEnd, peelBack_of_some found]
  rfl

theorem length_base_peel_lt {s : List Char} (marks : (peel s).declarators ≠ []) :
    (peel s).base.length < (trim s).length := by
  have front := length_base_peelFront_le (peelEnd (trim s)).base
  suffices back : (peelEnd (trim s)).base.length < (trim s).length from
    Nat.lt_of_le_of_lt front back
  replace marks : (peelBack (trim s).reverse).declarators ≠ [] := marks
  have reversed : (trim s).reverse.length = (trim s).length := List.length_reverse
  rw [peelEnd, ← reversed]
  cases found : lastMark? (trim s).reverse with
  | none => simp [peelBack_of_none found] at marks
  | some item =>
      obtain ⟨mark, rest⟩ := item
      have shorter := length_lt_of_lastMark? found
      have kept : (peelBack (trim s).reverse).base = (peelBack rest).base := by
        rw [peelBack_of_some found]
        cases mark <;> rfl
      rw [kept]
      exact Nat.lt_of_le_of_lt (length_base_peelBack_le rest) shorter

theorem declarators_ne_nil {spelling : String}
    (marked : (ofSpelling spelling).indirection ≠ .none) :
    (peel spelling.toList).declarators ≠ [] := by
  intro unmarked
  exact marked (by rw [ofSpelling, unmarked]; rfl)

theorem trimmed_ne_empty {spelling : String}
    (marked : (ofSpelling spelling).indirection ≠ .none) : trimmed spelling ≠ "" := by
  intro empty
  have shorter := length_base_peel_lt (declarators_ne_nil marked)
  have nothing : trim spelling.toList = [] := by
    simpa [trimmed] using congrArg String.toList empty
  rw [nothing] at shorter
  exact Nat.not_lt_zero _ shorter

/-- A spelling with a mark is not its own base. -/
theorem isDecorated_of_indirection_ne_none {spelling : String}
    (marked : (ofSpelling spelling).indirection ≠ .none) :
    (ofSpelling spelling).isDecorated spelling := by
  have shorter := length_base_peel_lt (declarators_ne_nil marked)
  rw [isDecorated, decide_eq_true_eq]
  intro same
  rw [String.ofList_injective same] at shorter
  exact Nat.lt_irrefl _ shorter

/-- A mark behind a marked spelling makes two or more. -/
theorem indirection_marked {spelling : String}
    (already : (ofSpelling spelling).indirection ≠ .none) (mark : Declarator) :
    (ofSpelling (marked spelling mark)).indirection = .multiple := by
  obtain ⟨inner, others, marks⟩ := List.exists_cons_of_ne_nil (declarators_ne_nil already)
  rw [ofSpelling, peel_marked, marks]
  rfl

theorem peel_of_isBare {spelling : String} (bare : IsBare spelling) :
    peel spelling.toList = ⟨[], false, spelling.toList⟩ := by
  have base : (peel spelling.toList).base = spelling.toList := by
    simpa [ofSpelling] using congrArg (·.base.toList) bare
  have unmarked : (peel spelling.toList).declarators = [] := by
    by_contra marks
    have shorter := length_base_peel_lt marks
    have := (trim_sublist spelling.toList).length_le
    rw [base] at shorter
    omega
  have fixed : (peel spelling.toList).isConst = false :=
    congrArg Shape.isConst bare
  generalize peel spelling.toList = peeled at base unmarked fixed ⊢
  obtain ⟨declarators, isConst, left⟩ := peeled
  rw [← base, ← unmarked, ← fixed]

/-- A mark behind a bare spelling is the only one. -/
theorem ofSpelling_marked {spelling : String} (bare : IsBare spelling) (mark : Declarator) :
    ofSpelling (marked spelling mark) = ⟨spelling, mark.indirection, false⟩ := by
  rw [ofSpelling, peel_marked, peel_of_isBare bare, String.ofList_toList]
  rfl

theorem trimmed_marked {spelling : String} (bare : IsBare spelling) (spelling_ne : spelling ≠ "")
    (mark : Declarator) : trimmed (marked spelling mark) = marked spelling mark := by
  have kept : trim spelling.toList = spelling.toList := by
    simpa [trimmed] using congrArg String.toList (trimmed_of_isBare bare)
  have tight : IsTight spelling.toList := .of_trim_eq (by simpa using spelling_ne) kept
  have whole := tight.append [' '] mark.isTight
  rw [List.append_assoc, List.singleton_append] at whole
  rw [trimmed, marked, String.toList_ofList, whole.trim_eq]

end Shape
end HeaderBinding
