import HeaderBinding.Proofs.Spelling.Peeling

/-!
# Types as they are written

A type is written as a base with words before it, qualifiers behind it, and then pointers and at
most one reference, each pointer with qualifiers of its own. Blanks stand between words, the base
being one, and may stand around marks. Main statement: `ofSpelling_spelling`, the shape that is read
off such a spelling tells what it was made of.
-/

namespace HeaderBinding
namespace Shape

open Text

/-- Blanks that keep two words apart. -/
structure Space extends Gap where
  blanks_ne : blanks ≠ []

/-- The qualifiers that a pointer has of its own. -/
inductive PointerQualifiers where
  | none
  | one (gap : Gap) (word : Qualifier)
  /-- First `const`, then `volatile`. -/
  | both (gap : Gap) (space : Space)

/-- The qualifiers as written behind the mark. -/
def PointerQualifiers.letters : PointerQualifiers → List Char
  | none => []
  | one gap word => gap.blanks ++ word.letters
  | both gap space =>
      gap.blanks ++ Qualifier.const.letters ++ space.blanks ++ Qualifier.volatile.letters

/-- A pointer mark with what stands before and behind it. -/
structure Pointer where
  gap : Gap
  qualifiers : PointerQualifiers

/-- The pointer as written. -/
def Pointer.letters (pointer : Pointer) : List Char :=
  pointer.gap.blanks ++ Declarator.pointer.letters ++ pointer.qualifiers.letters

/-- The kinds of references. -/
inductive Reference where
  | lvalue
  | rvalue
  deriving DecidableEq, Repr

/-- The mark of a reference. -/
def Reference.mark : Reference → Declarator
  | lvalue => .lvalueRef
  | rvalue => .rvalueRef

/-- The parts of a written type. -/
structure Written where
  front : List (Keyword × Space)
  base : String
  back : List (Space × Qualifier)
  pointers : List Pointer
  reference : Option (Gap × Reference)

namespace Written

/-- A word before the base, as written. -/
def frontLetters (item : Keyword × Space) : List Char :=
  item.1.letters ++ item.2.blanks

/-- A qualifier behind the base, as written. -/
def backLetters (item : Space × Qualifier) : List Char :=
  item.1.blanks ++ item.2.letters

/-- A reference, as written. -/
def referenceLetters (item : Gap × Reference) : List Char :=
  item.1.blanks ++ item.2.mark.letters

/-- The base with the words before it. -/
def core (written : Written) : List Char :=
  written.front.flatMap frontLetters ++ written.base.toList

/-- The base with all words that belong to it. -/
def qualified (written : Written) : List Char :=
  written.core ++ written.back.flatMap backLetters

/-- All of it, as written. -/
def letters (written : Written) : List Char :=
  written.qualified ++ written.pointers.flatMap Pointer.letters ++
    (written.reference.map referenceLetters).getD []

/-- The type as written. -/
def spelling (written : Written) : String :=
  String.ofList written.letters

/-- The qualifier `const` stands before or behind the base. -/
def isConst (written : Written) : Bool :=
  written.front.any (fun item => item.1 = .qualifier .const) ||
    written.back.any (fun item => item.2 = .const)

/-- What the marks amount to, the outermost first. -/
def declarators (written : Written) : List Indirection :=
  (written.reference.map fun item => item.2.mark.indirection).toList ++
    List.replicate written.pointers.length .pointer

/-- The only mark, if there is no more than one. -/
def indirection (written : Written) : Indirection :=
  match written.pointers, written.reference with
  | [], none => .none
  | [_], none => .pointer
  | [], some (_, .lvalue) => .lvalueRef
  | [], some (_, .rvalue) => .rvalueRef
  | _, _ => .multiple

end Written

section

variable {s first second : List Char} {written : Written}

/-! ## Texts to which marks can be added -/

/-- The text has no blanks at its ends and does not end with a reference mark, to which another one
could be added by mistake. -/
structure IsStem (s : List Char) : Prop extends IsTight s where
  apart : s.getLast? ≠ some '&'

theorem IsStem.append (first_stem : IsStem first) (gap : List Char) (second_stem : IsStem second) :
    IsStem (first ++ gap ++ second) where
  toIsTight := first_stem.toIsTight.append gap second_stem.toIsTight
  apart := by
    rw [List.getLast?_append_of_ne_nil _ second_stem.ne_nil]
    exact second_stem.apart

theorem Qualifier.isStem (word : Qualifier) : IsStem word.letters where
  toIsTight := word.isTight
  apart := by cases word <;> decide

theorem IsStem.of_isTight (tight : IsTight s) (unmarked : endsMarked s = false) : IsStem s where
  toIsTight := tight
  apart same := by
    rw [endsMarked, List.head?_reverse, same] at unmarked
    cases unmarked

/-! ## Words behind the base -/

theorem peelEnd_back (back : List (Space × Qualifier)) (stem : IsStem s)
    (unmarked : endsMarked s = false) :
    IsStem (s ++ back.flatMap Written.backLetters) ∧
      peelEnd (s ++ back.flatMap Written.backLetters) =
        { peelEnd s with
          isConst := (peelEnd s).isConst || back.any fun item => item.2 = .const } := by
  induction back generalizing s with
  | nil => simpa using stem
  | cons item back induction =>
      obtain ⟨space, word⟩ := item
      have longer := stem.append space.blanks word.isStem
      have longer_unmarked : endsMarked (s ++ space.blanks ++ word.letters) = false := by
        rw [endsMarked_append word.isTight.ne_nil, word.endsMarked_letters]
      have peeled := peelEnd_qualifier stem.toIsTight space.isBlank_of_mem word (.inl space.blanks_ne)
      obtain ⟨whole, rest⟩ := induction longer longer_unmarked
      rw [List.flatMap_cons, Written.backLetters, ← List.append_assoc, ← List.append_assoc]
      refine ⟨whole, ?_⟩
      rw [rest, peeled, unmarked, List.any_cons]
      simp [Bool.or_assoc]

/-! ## Pointers -/

/-- Qualifiers of a pointer say nothing about the type it points to. -/
theorem PointerQualifiers.peelEnd_append (qualifiers : PointerQualifiers) (stem : IsStem s)
    (marked : endsMarked s) :
    IsStem (s ++ qualifiers.letters) ∧ peelEnd (s ++ qualifiers.letters) = peelEnd s := by
  have single (gap : Gap) (word : Qualifier) :
      IsStem (s ++ gap.blanks ++ word.letters) ∧
        peelEnd (s ++ gap.blanks ++ word.letters) = peelEnd s := by
    refine ⟨stem.append gap.blanks word.isStem, ?_⟩
    rw [peelEnd_qualifier stem.toIsTight gap.isBlank_of_mem word (.inr marked), marked]
    simp
  cases qualifiers with
  | none =>
      rw [letters, List.append_nil]
      exact ⟨stem, rfl⟩
  | one gap word =>
      rw [letters, ← List.append_assoc]
      exact single gap word
  | both gap space =>
      obtain ⟨inner, peeled⟩ := single gap .const
      rw [letters, ← List.append_assoc, ← List.append_assoc, ← List.append_assoc]
      refine ⟨inner.append space.blanks (Qualifier.isStem .volatile), ?_⟩
      rw [peelEnd_qualifier inner.toIsTight space.isBlank_of_mem .volatile (.inl space.blanks_ne),
        peeled]
      simp

theorem Pointer.peelEnd_append (pointer : Pointer) (stem : IsStem s) :
    IsStem (s ++ pointer.letters) ∧ peelEnd (s ++ pointer.letters) =
      { peelEnd s with declarators := .pointer :: (peelEnd s).declarators } := by
  have star : IsStem Declarator.pointer.letters := ⟨Declarator.pointer.isTight, by decide⟩
  have inner := stem.append pointer.gap.blanks star
  have marked : endsMarked (s ++ pointer.gap.blanks ++ Declarator.pointer.letters) := by
    rw [endsMarked_append star.ne_nil]
    rfl
  obtain ⟨whole, peeled⟩ := pointer.qualifiers.peelEnd_append inner marked
  rw [letters, ← List.append_assoc, ← List.append_assoc]
  refine ⟨whole, ?_⟩
  rw [peeled, peelEnd_mark stem.toIsTight pointer.gap.isBlank_of_mem .pointer stem.apart]
  rfl

theorem peelEnd_pointers (pointers : List Pointer) (stem : IsStem s) :
    IsStem (s ++ pointers.flatMap Pointer.letters) ∧
      peelEnd (s ++ pointers.flatMap Pointer.letters) =
        { peelEnd s with
          declarators :=
            List.replicate pointers.length .pointer ++ (peelEnd s).declarators } := by
  induction pointers generalizing s with
  | nil => simpa using stem
  | cons pointer pointers induction =>
      obtain ⟨longer, peeled⟩ := pointer.peelEnd_append stem
      obtain ⟨whole, rest⟩ := induction longer
      rw [List.flatMap_cons, ← List.append_assoc]
      refine ⟨whole, ?_⟩
      rw [rest, peeled, List.length_cons, List.replicate_succ']
      simp

theorem peelEnd_reference (reference : Option (Gap × Reference)) (stem : IsStem s) :
    IsTight (s ++ (reference.map Written.referenceLetters).getD []) ∧
      peelEnd (s ++ (reference.map Written.referenceLetters).getD []) =
        { peelEnd s with
          declarators := (reference.map fun item => item.2.mark.indirection).toList ++
            (peelEnd s).declarators } := by
  cases reference with
  | none => simpa using stem.toIsTight
  | some item =>
      obtain ⟨gap, kind⟩ := item
      rw [Option.map_some, Option.getD_some, Written.referenceLetters, ← List.append_assoc]
      exact ⟨stem.toIsTight.append gap.blanks kind.mark.isTight,
        peelEnd_mark stem.toIsTight gap.isBlank_of_mem kind.mark stem.apart⟩

/-! ## Words before the base -/

theorem peelFront_front (front : List (Keyword × Space)) (tight : IsTight s) :
    IsTight (front.flatMap Written.frontLetters ++ s) ∧
      peelFront (front.flatMap Written.frontLetters ++ s) =
        { peelFront s with
          isConst := (front.any fun item => item.1 = .qualifier .const) ||
            (peelFront s).isConst } := by
  induction front with
  | nil => simpa using tight
  | cons item front induction =>
      obtain ⟨word, space⟩ := item
      obtain ⟨inner, peeled⟩ := induction
      rw [List.flatMap_cons, Written.frontLetters, List.append_assoc]
      refine ⟨word.isTight.append space.blanks inner, ?_⟩
      rw [peelFront_word word space.blanks_ne space.isBlank_of_mem inner, peeled, List.any_cons]
      simp [Bool.or_assoc]

theorem isBlank_of_getLast?_front (front : List (Keyword × Space)) :
    ∀ c ∈ (front.flatMap Written.frontLetters).getLast?, isBlank c = true := by
  intro c final
  rcases List.eq_nil_or_concat front with rfl | ⟨before, ⟨word, space⟩, rfl⟩
  · cases final
  · rw [List.concat_eq_append, List.flatMap_append, List.flatMap_singleton, Written.frontLetters,
      ← List.append_assoc, List.getLast?_append_of_ne_nil _ space.blanks_ne] at final
    exact space.isBlank_of_mem c (List.mem_of_getLast? final)

/-! ## The whole -/

theorem indirectionOf_declarators :
    indirectionOf written.declarators = written.indirection := by
  obtain ⟨_, _, _, pointers, reference⟩ := written
  rcases pointers with _ | ⟨_, _ | ⟨_, _⟩⟩ <;> rcases reference with _ | ⟨_, _ | _⟩ <;> rfl

/-- The end of the base stays as it is behind words. -/
theorem IsCore.peelEnd_core (core : IsCore written.base.toList) (base_ne : written.base.toList ≠ [])
    (noQualifier : ∀ word : Qualifier, written.base.toList ≠ word.letters) :
    peelEnd written.core = ⟨[], false, written.core⟩ := by
  have unmarked : lastMark? written.core.reverse = none := by
    rw [Written.core, List.reverse_append]
    apply core.lastMark?_append base_ne noQualifier
    rw [List.head?_reverse]
    exact isBlank_of_getLast?_front written.front
  rw [peelEnd, peelBack_of_none unmarked, List.reverse_reverse]

theorem peelEnd_written (tight : IsTight written.core) (unmarked : endsMarked written.core = false)
    (inside : peelEnd written.core = ⟨[], false, written.core⟩) :
    IsTight written.letters ∧ peelEnd written.letters =
      ⟨written.declarators, written.back.any fun item => item.2 = .const, written.core⟩ := by
  obtain ⟨qualified, back⟩ := peelEnd_back written.back (.of_isTight tight unmarked) unmarked
  obtain ⟨pointed, pointers⟩ := peelEnd_pointers written.pointers qualified
  obtain ⟨whole, reference⟩ := peelEnd_reference written.reference pointed
  refine ⟨whole, ?_⟩
  rw [Written.letters, Written.qualified, reference, pointers, back, inside]
  simp [Written.declarators]

/-- The shape of a written type has its base, the mark if there is only one, and the qualifier of
the base, whatever the qualifiers of the pointers. The base is a text from which nothing can be
peeled off, but no qualifier, which would be peeled off behind a word. -/
theorem ofSpelling_spelling (written : Written)
    (unchanged : (ofSpelling written.base).base = written.base) (nonempty : written.base ≠ "")
    (noQualifier : ∀ word : Qualifier, written.base.toList ≠ word.letters) :
    ofSpelling written.spelling = ⟨written.base, written.indirection, written.isConst⟩ := by
  have base_ne : written.base.toList ≠ [] := by simpa using nonempty
  have core : IsCore written.base.toList := by
    apply isCore_of_base_peel
    simpa [ofSpelling] using congrArg String.toList unchanged
  obtain ⟨tight, front⟩ : IsTight written.core ∧ peelFront written.core = _ :=
    peelFront_front written.front (core.isTight base_ne)
  rw [peelFront_of_none core.firstKeyword?_eq, Bool.or_false] at front
  have unmarked : endsMarked written.core = false := by
    rw [Written.core, endsMarked_append base_ne, core.endsMarked_eq]
  obtain ⟨whole, back⟩ := peelEnd_written tight unmarked (core.peelEnd_core base_ne noQualifier)
  have peeled : peel written.spelling.toList =
      ⟨written.declarators, written.isConst, written.base.toList⟩ := by
    rw [Written.spelling, String.toList_ofList, peel, whole.trim_eq, back]
    dsimp only
    rw [front, Written.isConst, Bool.or_comm]
  rw [ofSpelling, peeled, String.ofList_toList, indirectionOf_declarators]

/-- One blank. -/
def Space.single : Space :=
  ⟨⟨[' '], List.forall_mem_singleton.mpr (by decide)⟩, List.cons_ne_nil _ _⟩

/-- A reference to a pointer with both qualifiers, which points to a constant vector. -/
def vectorReference : Written where
  front := [(.qualifier .const, .single), (.struct, .single)]
  base := "std::vector<int *>"
  back := [(.single, .volatile)]
  pointers := [⟨Space.single.toGap, .both .empty .single⟩]
  reference := some (.empty, .lvalue)

theorem ofSpelling_vectorReference :
    vectorReference.spelling =
        "const struct std::vector<int *> volatile *const volatile&" ∧
      (ofSpelling vectorReference.base).base = vectorReference.base ∧
      vectorReference.base ≠ "" ∧
      (∀ word : Qualifier, vectorReference.base.toList ≠ word.letters) ∧
      ofSpelling vectorReference.spelling = ⟨"std::vector<int *>", .multiple, true⟩ := by
  have unchanged : (ofSpelling vectorReference.base).base = vectorReference.base := by
    decide +kernel
  have nonempty : vectorReference.base ≠ "" := by
    decide
  have noQualifier : ∀ word : Qualifier, vectorReference.base.toList ≠ word.letters := by
    intro word
    cases word <;> decide
  exact ⟨by decide, unchanged, nonempty, noQualifier,
    ofSpelling_spelling vectorReference unchanged nonempty noQualifier⟩

end
end Shape
end HeaderBinding
