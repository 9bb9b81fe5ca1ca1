import HeaderBinding.Text.Affix

/-!
# Texts that are told apart

Texts with different characters at some place do not begin the same text, whatever follows them. So
a text that begins with one of several marks, each of which is apart from the others, is read as
that mark says.
-/

namespace HeaderBinding
namespace Text

/-- The texts have different characters at some place. -/
def AreApart (first second : List Char) : Prop :=
  ∃ pair ∈ first.zip second, pair.1 ≠ pair.2

instance (first second : List Char) : Decidable (AreApart first second) :=
  inferInstanceAs (Decidable (∃ pair ∈ first.zip second, pair.1 ≠ pair.2))

section

variable {first second : List Char}

theorem AreApart.ne_nil (apart : AreApart first second) : second ≠ [] := by
  rintro rfl
  simp [AreApart] at apart

theorem AreApart.append (apart : AreApart first second) (rest : List Char) :
    AreApart first (second ++ rest) := by
  obtain ⟨pair, member, ne⟩ := apart
  refine ⟨pair, ?_, ne⟩
  induction first generalizing second with
  | nil => simp at member
  | cons c first induction =>
      cases second with
      | nil => simp at member
      | cons d second =>
          simp only [List.cons_append, List.zip_cons_cons, List.mem_cons] at member ⊢
          exact member.imp_right induction

theorem dropFront?_eq_none_of_areApart (apart : AreApart first second) :
    dropFront? first second = none := by
  induction first generalizing second with
  | nil => simp [AreApart] at apart
  | cons p first induction =>
      cases second with
      | nil => rfl
      | cons c second =>
          rw [dropFront?]
          split
          · rename_i same
            subst same
            exact induction (by simpa [AreApart] using apart)
          · rfl

end

/-! ## Marks -/

/-- Read a text by the first mark that it begins with and that has something to say about the
rest. -/
def readMarked? {Result : Type} (readers : List (String × (List Char → Option Result)))
    (s : List Char) : Option Result :=
  readers.findSome? fun reader => (dropFront? reader.1.toList s).bind reader.2

theorem readMarked?_append {Result : Type} {readers : List (String × (List Char → Option Result))}
    (apart : readers.Pairwise fun first second =>
      AreApart first.1.toList second.1.toList ∧ AreApart second.1.toList first.1.toList)
    {mark : String} {read : List Char → Option Result} (listed : (mark, read) ∈ readers)
    (rest : List Char) : readMarked? readers (mark.toList ++ rest) = read rest := by
  have skipped {other : String × (List Char → Option Result)}
      (others : AreApart other.1.toList mark.toList) :
      (dropFront? other.1.toList (mark.toList ++ rest)).bind other.2 = none := by
    rw [dropFront?_eq_none_of_areApart (others.append rest), Option.bind_none]
  induction apart with
  | nil => cases listed
  | @cons reader readers apart _ induction =>
      rw [readMarked?, List.findSome?_cons]
      rcases List.mem_cons.mp listed with rfl | later
      · have taken : dropFront? mark.toList (mark.toList ++ rest) = some rest :=
          dropFront?_eq_some.mpr rfl
        have silent : readMarked? readers (mark.toList ++ rest) = none :=
          List.findSome?_eq_none_iff.mpr fun other member => skipped (apart other member).2
        rw [readMarked?] at silent
        rw [taken, Option.bind_some, silent]
        cases found : read rest <;> simp [found]
      · rw [skipped (apart _ later).1]
        exact induction later

end Text
end HeaderBinding
