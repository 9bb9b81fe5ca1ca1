import HeaderBinding.Proofs.Spelling.Mark

/-!
# Peeling one layer

What is written around a type lies around it in layers: a word or a mark, and blanks that part it
from what is inside. Each law here says what peeling does to a text with one layer more.
-/

namespace HeaderBinding
namespace Shape

open Text

section

variable {s gap rest more first second : List Char} {word other : Keyword}

/-! ## Words and marks -/

theorem Qualifier.not_isBlank {word : Qualifier} : ∀ c ∈ word.letters, isBlank c = false := by
  have none_blank : word.letters.all (!isBlank ·) := by
    cases word <;> decide
  intro c listed
  simpa using List.all_eq_true.mp none_blank c listed

theorem Qualifier.isTight (word : Qualifier) : IsTight word.letters :=
  .of_not_isBlank (by cases word <;> simp [letters]) not_isBlank

theorem Keyword.not_isBlank : ∀ c ∈ word.letters, isBlank c = false := by
  have none_blank : word.letters.all (!isBlank ·) := by
    cases word with
    | qualifier word => cases word <;> decide
    | _ => decide
  intro c listed
  simpa using List.all_eq_true.mp none_blank c listed

theorem Keyword.isTight (word : Keyword) : IsTight word.letters := by
  refine .of_not_isBlank ?_ not_isBlank
  cases word with
  | qualifier word => exact word.isTight.ne_nil
  | _ => simp [letters]

/-! ## Layers at the end -/

/-- The text ends with a pointer or reference mark. -/
def endsMarked (s : List Char) : Bool :=
  s.reverse.head?.any isDeclaratorChar

theorem peelEnd_of_declarator {kind : Indirection}
    (found : lastMark? s.reverse = some (.declarator kind, rest.reverse)) :
    peelEnd s = { peelEnd rest with declarators := kind :: (peelEnd rest).declarators } := by
  rw [peelEnd, peelBack_of_some found]
  rfl

theorem peelEnd_of_qualifier {word : Qualifier}
    (found : lastMark? s.reverse = some (.qualifier word, rest.reverse)) :
    peelEnd s = { peelEnd rest with
      isConst := (peelEnd rest).isConst || (word = .const && !endsMarked rest) } := by
  rw [peelEnd, peelBack_of_some found]
  rfl

/-- A mark behind a text is peeled off first. Two of the marks would be another one if they stood
side by side. -/
theorem peelEnd_mark (tight : IsTight s) (blank : ∀ c ∈ gap, isBlank c = true) (mark : Declarator)
    (apart : s.getLast? ≠ some '&') :
    peelEnd (s ++ gap ++ mark.letters) =
      { peelEnd s with declarators := mark.indirection :: (peelEnd s).declarators } := by
  have parted : (gap.reverse ++ s.reverse).head? ≠ some '&' := by
    cases back : gap.reverse with
    | nil => simpa using apart
    | cons c later =>
        have listed : c ∈ gap := List.mem_reverse.mp (back ▸ List.mem_cons_self)
        rintro ⟨⟩
        exact absurd (blank '&' listed) (by decide)
  have found := lastMark?_declarator mark parted
  rw [tight.trimStart_gap blank] at found
  apply peelEnd_of_declarator
  simpa using found

theorem dropFront?_append (front rest : List Char) : dropFront? front (front ++ rest) = some rest :=
  dropFront?_eq_some.mpr rfl

theorem lastMark?_qualifier (word : Qualifier) (ends : endsQualified rest) :
    lastMark? (word.letters.reverse ++ rest) = some (.qualifier word, trimStart rest) := by
  have found : lastQualifier? word (word.letters.reverse ++ rest) =
      some (.qualifier word, trimStart rest) := by
    rw [lastQualifier?, dropFront?_append, Option.filter_some, if_pos ends, Option.map_some]
  have noDeclarator : lastDeclarator? (word.letters.reverse ++ rest) = none := by
    cases word <;> rfl
  rw [lastMark?, noDeclarator, Option.none_or]
  cases word with
  | const => rw [found, Option.some_or]
  | volatile =>
      have other : lastQualifier? .const (Qualifier.volatile.letters.reverse ++ rest) = none := rfl
      rw [other, Option.none_or, found]

/-- A qualifier behind a text is peeled off if it is a word of its own. It is one of the type unless
the text ends with a mark. -/
theorem peelEnd_qualifier (tight : IsTight s) (blank : ∀ c ∈ gap, isBlank c = true)
    (word : Qualifier) (parted : gap ≠ [] ∨ endsMarked s) :
    peelEnd (s ++ gap ++ word.letters) =
      { peelEnd s with
        isConst := (peelEnd s).isConst || (word = .const && !endsMarked s) } := by
  have back := tight.trimStart_gap blank
  have ends : endsQualified (gap.reverse ++ s.reverse) := by
    have solid : (trimStart (gap.reverse ++ s.reverse)).isEmpty = false := by
      rw [back, List.isEmpty_eq_false_iff]
      exact tight.reverse.ne_nil
    rw [endsQualified, solid, Bool.not_false, Bool.and_true]
    cases gap_eq : gap.reverse with
    | nil =>
        have none : gap = [] := List.reverse_eq_nil_iff.mp gap_eq
        have isMark : s.reverse.head?.any isDeclaratorChar := parted.resolve_left (not_not.mpr none)
        rw [List.nil_append]
        revert isMark
        cases s.reverse.head? <;> simp +contextual
    | cons c later =>
        have listed : c ∈ gap := List.mem_reverse.mp (gap_eq ▸ List.mem_cons_self)
        simp [blank c listed]
  have found := lastMark?_qualifier word ends
  rw [back] at found
  apply peelEnd_of_qualifier
  simpa using found

theorem endsMarked_append (second_ne : second ≠ []) :
    endsMarked (first ++ second) = endsMarked second := by
  have back_ne : second.reverse ≠ [] := by simpa using second_ne
  rw [endsMarked, List.reverse_append, List.head?_append_of_ne_nil _ back_ne, endsMarked]

theorem Qualifier.endsMarked_letters (word : Qualifier) : endsMarked word.letters = false := by
  cases word <;> rfl

/-! ## Layers at the front -/

theorem Keyword.mem_all (word : Keyword) : word ∈ all := by
  cases word with
  | qualifier word => cases word <;> decide
  | _ => decide

theorem Keyword.letters_injective : Function.Injective letters := by
  have distinct : ∀ first ∈ all, ∀ second ∈ all, first.letters = second.letters →
      first = second := by decide
  exact fun first second => distinct first first.mem_all second second.mem_all

theorem takeWhile_word (unspaced : ∀ c ∈ first, isBlank c = false) (blank : startsBlank rest) :
    (first ++ rest).takeWhile (!isBlank ·) = first := by
  rw [List.takeWhile_append_of_pos fun c listed => by rw [unspaced c listed]; rfl]
  cases rest with
  | nil => cases blank
  | cons c rest =>
      have isBlank_c : isBlank c = true := blank
      rw [List.takeWhile_cons_of_neg (by simp [isBlank_c]), List.append_nil]

/-- Only one word stands at the front of a text. -/
theorem Keyword.eq_of_append_eq (same : word.letters ++ rest = other.letters ++ more)
    (blank : startsBlank rest) (other_blank : startsBlank more) : word = other := by
  apply letters_injective
  rw [← takeWhile_word word.not_isBlank blank, same, takeWhile_word other.not_isBlank other_blank]

theorem firstKeyword?_append (word : Keyword) (gap_ne : gap ≠ [])
    (blank : ∀ c ∈ gap, isBlank c = true) (tight : IsTight s) :
    firstKeyword? (word.letters ++ gap ++ s) = some (word, s) := by
  have starts : startsBlank (gap ++ s) := by
    obtain ⟨c, later, rfl⟩ := List.exists_cons_of_ne_nil gap_ne
    exact blank c List.mem_cons_self
  have trimmed : trimStart (gap ++ s) = s := by
    rw [trimStart, List.dropWhile_append_of_pos blank]
    exact tight.trimStart_eq
  have own : dropFrontWord? word.letters (word.letters ++ gap ++ s) = some s := by
    rw [List.append_assoc, dropFrontWord?, dropFront?_append, Option.filter_some, if_pos starts,
      Option.map_some, trimmed]
  cases found : firstKeyword? (word.letters ++ gap ++ s) with
  | none =>
      have missing := List.findSome?_eq_none_iff.mp found word word.mem_all
      rw [own] at missing
      cases missing
  | some item =>
      obtain ⟨other, -, cut⟩ := List.exists_of_findSome?_eq_some found
      obtain ⟨later, kept, rfl⟩ := Option.map_eq_some_iff.mp cut
      obtain ⟨more, other_found, -⟩ := Option.map_eq_some_iff.mp kept
      obtain ⟨split, other_starts⟩ := Option.filter_eq_some_iff.mp other_found
      rw [dropFront?_eq_some, List.append_assoc] at split
      obtain rfl := Keyword.eq_of_append_eq split starts other_starts
      rw [own] at kept
      rw [Option.some.inj kept]

theorem peelFront_of_some (found : firstKeyword? s = some (word, rest)) :
    peelFront s =
      { peelFront rest with isConst := word = .qualifier .const || (peelFront rest).isConst } := by
  rw [peelFront]
  split
  · simp_all
  · rename_i other later again
    obtain ⟨rfl, rfl⟩ : other = word ∧ later = rest := by
      simpa [found, eq_comm] using again
    rfl

/-- A word in front of a text is peeled off if blanks stand between them. -/
theorem peelFront_word (word : Keyword) (gap_ne : gap ≠ []) (blank : ∀ c ∈ gap, isBlank c = true)
    (tight : IsTight s) :
    peelFront (word.letters ++ gap ++ s) =
      { peelFront s with isConst := word = .qualifier .const || (peelFront s).isConst } :=
  peelFront_of_some (firstKeyword?_append word gap_ne blank tight)

/-! ## What is inside all layers -/

theorem lastMark?_eq_none_of_length (same : (peelBack s).base.length = s.length) :
    lastMark? s = none := by
  rw [Option.eq_none_iff_forall_ne_some]
  rintro ⟨mark, rest⟩ found
  have shorter := length_lt_of_lastMark? found
  have inner := length_base_peelBack_le rest
  have kept : (peelBack s).base = (peelBack rest).base := by
    rw [peelBack_of_some found]
    cases mark <;> rfl
  rw [kept] at same
  omega

theorem firstKeyword?_eq_none_of_length (same : (peelFront s).base.length = s.length) :
    firstKeyword? s = none := by
  rw [Option.eq_none_iff_forall_ne_some]
  rintro ⟨word, rest⟩ found
  have shorter := length_lt_of_firstKeyword? found
  have inner := length_base_peelFront_le rest
  have kept : (peelFront s).base = (peelFront rest).base := by
    rw [peelFront_of_some found]
  rw [kept] at same
  omega

theorem lastDeclarator?_eq_none_iff :
    lastDeclarator? s = none ↔ s.head?.any isDeclaratorChar = false := by
  cases s with
  | nil => simp [lastDeclarator?, dropFront?]
  | cons c rest =>
      by_cases and : c = '&'
      · simp [lastDeclarator?, dropFront?, and, isDeclaratorChar]
      · by_cases star : c = '*'
        · simp [lastDeclarator?, dropFront?, isDeclaratorChar, star]
        · simp [lastDeclarator?, dropFront?, isDeclaratorChar, and, star, Ne.symm and, Ne.symm star]

/-- There is nothing to peel off at either end of the text. -/
structure IsCore (s : List Char) : Prop where
  trim_eq : trim s = s
  lastMark?_eq : lastMark? s.reverse = none
  firstKeyword?_eq : firstKeyword? s = none

/-- Peeling makes a text shorter unless there is nothing to peel off. -/
theorem isCore_of_base_peel (unchanged : (peel s).base = s) : IsCore s := by
  have inner : (peel s).base.length ≤ (peelEnd (trim s)).base.length := length_base_peelFront_le _
  have outer : (peelBack (trim s).reverse).base.length ≤ (trim s).reverse.length :=
    length_base_peelBack_le _
  rw [unchanged, peelEnd] at inner
  rw [List.length_reverse] at outer
  have trimmed : trim s = s :=
    (trim_sublist s).eq_of_length_le (Nat.le_trans inner outer)
  rw [trimmed] at inner outer
  have unmarked : lastMark? s.reverse = none := by
    apply lastMark?_eq_none_of_length
    rw [List.length_reverse]
    exact Nat.le_antisymm outer inner
  have marks : peelEnd (trim s) = ⟨[], false, s⟩ := by
    rw [trimmed, peelEnd, peelBack_of_none unmarked, List.reverse_reverse]
  refine ⟨trimmed, unmarked, firstKeyword?_eq_none_of_length ?_⟩
  have words : (peel s).base = (peelFront s).base := by rw [peel, marks]
  rw [← words, unchanged]

namespace IsCore

theorem isTight (core : IsCore s) (ne_nil : s ≠ []) : IsTight s :=
  .of_trim_eq ne_nil core.trim_eq

theorem endsMarked_eq (core : IsCore s) : endsMarked s = false :=
  lastDeclarator?_eq_none_iff.mp (Option.or_eq_none_iff.mp core.lastMark?_eq).1

theorem lastQualifier?_eq (core : IsCore s) (word : Qualifier) :
    lastQualifier? word s.reverse = none := by
  obtain ⟨-, qualifiers⟩ := Option.or_eq_none_iff.mp core.lastMark?_eq
  obtain ⟨const, volatile⟩ := Option.or_eq_none_iff.mp qualifiers
  cases word with
  | const => exact const
  | volatile => exact volatile

/-- A text that is no qualifier keeps its end behind blanks. -/
theorem lastMark?_append (core : IsCore s) (ne_nil : s ≠ [])
    (noQualifier : ∀ word : Qualifier, s ≠ word.letters)
    (blank : ∀ c ∈ more.head?, isBlank c = true) : lastMark? (s.reverse ++ more) = none := by
  have tight := core.isTight ne_nil
  have noDeclarator : lastDeclarator? (s.reverse ++ more) = none := by
    rw [lastDeclarator?_eq_none_iff, List.head?_append_of_ne_nil _ tight.reverse.ne_nil]
    exact core.endsMarked_eq
  have noWord (word : Qualifier) : lastQualifier? word (s.reverse ++ more) = none := by
    rw [lastQualifier?, Option.map_eq_none_iff, Option.filter_eq_none_iff]
    intro rest split ends
    rw [dropFront?_eq_some] at split
    rcases List.append_eq_append_iff.mp split with ⟨part, longer, rfl⟩ | ⟨part, shorter, rfl⟩
    · -- The qualifier would reach into the blanks.
      cases part with
      | nil =>
          rw [List.append_nil, List.reverse_inj] at longer
          exact noQualifier word longer.symm
      | cons c part =>
          have listed : c ∈ word.letters := by
            rw [← List.mem_reverse, longer]
            simp
          have solid := word.not_isBlank c listed
          rw [blank c rfl] at solid
          cases solid
    · cases part with
      | nil =>
          rw [List.append_nil, List.reverse_inj] at shorter
          exact noQualifier word shorter
      | cons c part =>
          -- The text alone would end with the qualifier.
          have missing := core.lastQualifier?_eq word
          rw [lastQualifier?, shorter, dropFront?_append, Option.map_eq_none_iff,
            Option.filter_eq_none_iff] at missing
          apply missing _ rfl
          have last : (c :: part).getLast? = s.head? := by
            rw [← List.getLast?_reverse, shorter, List.getLast?_append_of_ne_nil _ (by simp)]
          have solid : (trimStart (c :: part)).isEmpty = false := by
            rw [List.isEmpty_eq_false_iff, trimStart, ne_eq, List.dropWhile_eq_nil_iff]
            intro all_blank
            obtain ⟨first, rest, rfl⟩ := List.exists_cons_of_ne_nil ne_nil
            have unblank := tight.head first rfl
            rw [all_blank first (List.mem_of_getLast? last)] at unblank
            cases unblank
          rw [endsQualified, solid, Bool.not_false, Bool.and_true]
          rw [endsQualified, Bool.and_eq_true] at ends
          exact ends.1
  rw [lastMark?, noDeclarator, noWord, noWord]
  rfl

end IsCore

end
end Shape
end HeaderBinding
