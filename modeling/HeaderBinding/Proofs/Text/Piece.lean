import HeaderBinding.Text.Search
import Mathlib.Data.List.Basic

/-!
# Pieces of a text

A text is cut at every separator, and its pieces make up the text again.
-/

namespace HeaderBinding
namespace Text

variable {separator : Char} {s : List Char}

theorem notMem_of_mem_pieces : ∀ piece ∈ pieces separator s, separator ∉ piece := by
  induction s with
  | nil => simp [pieces]
  | cons c rest induction =>
      rw [pieces]
      split
      · simpa using induction
      · rename_i other
        split
        · simpa using Ne.symm other
        · rename_i piece later parts
          rw [parts, List.forall_mem_cons] at induction
          simpa [Ne.symm other] using induction

theorem pieces_of_notMem (absent : separator ∉ s) : pieces separator s = [s] := by
  induction s with
  | nil => rfl
  | cons c rest induction =>
      rw [List.mem_cons, not_or] at absent
      rw [pieces, if_neg (Ne.symm absent.1), induction absent.2]

theorem pieces_append (absent : separator ∉ s) (rest : List Char) :
    pieces separator (s ++ separator :: rest) = s :: pieces separator rest := by
  induction s with
  | nil => rw [List.nil_append, pieces, if_pos rfl]
  | cons c front induction =>
      rw [List.mem_cons, not_or] at absent
      rw [List.cons_append, pieces, if_neg (Ne.symm absent.1), induction absent.2]

/-- Texts without separator can be read off their text with separators in between. -/
theorem pieces_intercalate {parts : List (List Char)} (filled : parts ≠ [])
    (absent : ∀ part ∈ parts, separator ∉ part) :
    pieces separator ([separator].intercalate parts) = parts := by
  induction parts with
  | nil => contradiction
  | cons part later induction =>
      rw [List.forall_mem_cons] at absent
      by_cases last : later = []
      · rw [last, List.intercalate_singleton, pieces_of_notMem absent.1]
      · rw [List.intercalate_cons_of_ne_nil last, List.append_assoc, List.singleton_append,
          pieces_append absent.1, induction last absent.2]

/-- Every text but the first has a separator before it. -/
theorem intercalate_cons_eq_join (separator first : String) (later : List String) :
    separator.intercalate (first :: later) =
      first ++ String.join (later.map (separator ++ ·)) := by
  induction later generalizing first with
  | nil => rw [String.intercalate_singleton, List.map_nil, String.join_nil, String.append_empty]
  | cons second later induction =>
      rw [String.intercalate_cons_cons, induction, List.map_cons, String.join_cons,
        String.append_assoc, String.append_assoc]

end Text
end HeaderBinding
