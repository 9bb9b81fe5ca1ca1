import HeaderBinding.Text.Blank
import Mathlib.Data.List.Basic

/-!
# Words

The words of a text are the runs of characters in it that are not blank and have blanks or nothing
around them.
-/

namespace HeaderBinding
namespace Text

/-- A text without blanks that stands in another one, with blanks or nothing around it. -/
structure IsWord (word s : List Char) : Prop where
  ne_nil : word ≠ []
  solid : ∀ c ∈ word, isBlank c = false
  stands : ∃ before after, s = before ++ word ++ after ∧
    (∀ c ∈ before.getLast?, isBlank c = true) ∧ ∀ c ∈ after.head?, isBlank c = true

section

variable {word front rest : List Char} {c : Char}

/-! ## Where blanks part a text -/

theorem wordsFrom_of_solid (solid : ∀ c ∈ rest, isBlank c = false) (begun : List Char) :
    wordsFrom begun rest = if begun.reverse ++ rest = [] then [] else [begun.reverse ++ rest] := by
  induction rest generalizing begun with
  | nil => cases begun <;> simp [wordsFrom]
  | cons c rest induction =>
      rw [List.forall_mem_cons] at solid
      rw [wordsFrom, if_neg (by simp [solid.1]), induction solid.2]
      simp

theorem words_of_solid (filled : word ≠ []) (solid : ∀ c ∈ word, isBlank c = false) :
    words word = [word] := by
  rw [words, wordsFrom_of_solid solid, List.reverse_nil, List.nil_append, if_neg filled]

theorem wordsFrom_append_blank (blank : isBlank c = true) (begun : List Char) :
    wordsFrom begun (front ++ c :: rest) = wordsFrom begun front ++ words rest := by
  induction front generalizing begun with
  | nil => cases begun <;> simp [wordsFrom, blank, words]
  | cons d front induction =>
      rw [List.cons_append, wordsFrom, wordsFrom, induction, induction]
      split
      · split <;> rfl
      · rfl

/-- A blank parts the words before it from those behind it. -/
theorem words_append_blank (blank : isBlank c = true) :
    words (front ++ c :: rest) = words front ++ words rest :=
  wordsFrom_append_blank blank []

theorem words_concat_blank (blank : isBlank c = true) : words (front ++ [c]) = words front := by
  have none : words [] = [] := rfl
  rw [words_append_blank blank, none, List.append_nil]

/-! ## Which words there are -/

theorem IsWord.beyond (isWord : IsWord word rest) (blank : isBlank c = true) :
    IsWord word (front ++ c :: rest) := by
  obtain ⟨ne_nil, solid, before, after, rfl, last, head⟩ := isWord
  refine ⟨ne_nil, solid, front ++ c :: before, after, by simp, fun d final => ?_, head⟩
  cases before with
  | nil =>
      obtain rfl : c = d := by simpa using final
      exact blank
  | cons e before =>
      rw [List.getLast?_append_cons, List.getLast?_cons_cons] at final
      exact last d final

theorem mem_words_of_solid (solid : ∀ c ∈ front, isBlank c = false) :
    word ∈ words front ↔ front ≠ [] ∧ word = front := by
  by_cases empty : front = []
  · simp [empty, words, wordsFrom]
  · rw [words_of_solid empty solid, List.mem_singleton, and_iff_right empty]

/-- The part of the text up to `rest` may be the beginning of a word. -/
theorem isWord_of_mem_words_append (solid : ∀ c ∈ front, isBlank c = false)
    (listed : word ∈ words (front ++ rest)) : IsWord word (front ++ rest) := by
  induction rest generalizing front with
  | nil =>
      rw [List.append_nil] at listed ⊢
      obtain ⟨filled, rfl⟩ := (mem_words_of_solid solid).mp listed
      exact ⟨filled, solid, [], [], by simp, by simp, by simp⟩
  | cons c rest induction =>
      cases blank : isBlank c with
      | true =>
          rw [words_append_blank blank, List.mem_append] at listed
          rcases listed with first | later
          · obtain ⟨filled, rfl⟩ := (mem_words_of_solid solid).mp first
            exact ⟨filled, solid, [], c :: rest, by simp, by simp, by simp [blank]⟩
          · exact (induction (List.forall_mem_nil _) later).beyond blank
      | false =>
          rw [List.append_cons] at listed ⊢
          refine induction (fun d member => ?_) listed
          rcases List.mem_append.mp member with earlier | last
          · exact solid d earlier
          · rwa [List.mem_singleton.mp last]

end

/-- The words of a text are its words as they stand in it. -/
theorem mem_words_iff {word s : List Char} : word ∈ words s ↔ IsWord word s := by
  refine ⟨isWord_of_mem_words_append (List.forall_mem_nil _), ?_⟩
  rintro ⟨ne_nil, solid, before, after, rfl, last, head⟩
  have own : word ∈ words (word ++ after) := by
    cases after with
    | nil => rw [List.append_nil, words_of_solid ne_nil solid, List.mem_singleton]
    | cons c after =>
        rw [words_append_blank (head c rfl), words_of_solid ne_nil solid]
        exact List.mem_cons_self
  cases parted : before.getLast? with
  | none =>
      rw [List.getLast?_eq_none_iff.mp parted]
      simpa using own
  | some c =>
      obtain ⟨front, rfl⟩ := List.getLast?_eq_some_iff.mp parted
      rw [List.append_assoc, List.append_assoc, List.singleton_append,
        words_append_blank (last c parted)]
      exact List.mem_append_right _ own

end Text
end HeaderBinding
