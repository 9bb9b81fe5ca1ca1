import HeaderBinding.Text.Search
import Mathlib.Data.List.Basic

/-!
# Pairs of characters

Where two characters stand side by side: the first such place in a text, and what becomes of all of
them when they are replaced.
-/

namespace HeaderBinding
namespace Text

variable {a b c : Char} {s front : List Char}

theorem hasPair_cons (a b c : Char) (s : List Char) :
    hasPair a b (c :: s) = (c == a && s.head? == some b || hasPair a b s) := by
  cases s with
  | nil => simp [hasPair]
  | cons d rest => simp [hasPair]

theorem cutPair?_cons (a b c : Char) (s : List Char) :
    cutPair? a b (c :: s) =
      if c = a ∧ s.head? = some b then some ([], s.tail)
      else (cutPair? a b s).map fun (before, after) => (c :: before, after) := by
  cases s with
  | nil => simp [cutPair?]
  | cons d rest => simp [cutPair?]

theorem hasPair_eq_true_iff : hasPair a b s = true ↔ [a, b] <:+: s := by
  induction s with
  | nil => simp [hasPair]
  | cons c rest induction =>
      have starts : [a, b] <+: c :: rest ↔ c = a ∧ rest.head? = some b := by
        rw [List.cons_prefix_cons, List.singleton_prefix_iff_head?_eq_some, eq_comm]
      rw [List.infix_cons_iff, starts, ← induction, hasPair_cons]
      simp

theorem hasPair_concat_of_ne (ne : c ≠ b) : hasPair a b (s ++ [c]) = hasPair a b s := by
  induction s with
  | nil => rfl
  | cons d rest induction =>
      rw [List.cons_append, hasPair_cons, induction, hasPair_cons]
      cases rest <;> simp [ne]

theorem cutPair?_eq_none (absent : hasPair a b s = false) : cutPair? a b s = none := by
  induction s with
  | nil => rfl
  | cons c rest induction =>
      rw [hasPair_cons, Bool.or_eq_false_iff] at absent
      rw [cutPair?_cons, if_neg (by simpa using absent.1), induction absent.2, Option.map_none]

/-- The first pair of a text is where its first character ends a text without pairs. -/
theorem cutPair?_append (absent : hasPair a b (front ++ [a]) = false) (rest : List Char) :
    cutPair? a b (front ++ a :: b :: rest) = some (front, rest) := by
  induction front with
  | nil => simp [cutPair?]
  | cons c front induction =>
      rw [List.cons_append, hasPair_cons, Bool.or_eq_false_iff] at absent
      have starts : ¬(c = a ∧ (front ++ a :: b :: rest).head? = some b) := by
        have apart := absent.1
        cases front <;> simpa using apart
      rw [List.cons_append, cutPair?_cons, if_neg starts, induction absent.2, Option.map_some]

theorem head?_replacePair (a b : Char) (new s : List Char) :
    (replacePair a b (a :: new) s).head? = s.head? := by
  unfold replacePair
  split
  · split
    · rename_i pair
      exact congrArg some pair.1.symm
    · rfl
  · rfl

/-- Pairs that are broken up leave none, and none arises where the pieces meet. -/
theorem hasPair_replacePair (distinct : a ≠ b) (after_ne : c ≠ b) (before_ne : c ≠ a)
    (s : List Char) : hasPair a b (replacePair a b [a, c, b] s) = false := by
  fun_induction replacePair a b [a, c, b] s with
  | case1 x y rest _ induction =>
      simp [hasPair_cons, after_ne, before_ne, Ne.symm distinct, induction]
  | case2 x y rest other induction =>
      rw [hasPair_cons, head?_replacePair, induction]
      simpa using other
  | case3 s short =>
      rcases s with _ | ⟨x, _ | ⟨y, rest⟩⟩
      · rfl
      · rfl
      · exact absurd rfl (short x y rest)

/-- A pair that is broken up keeps its own characters. -/
theorem filter_replacePair {keeps : Char → Bool} {new : List Char}
    (same : new.filter keeps = [a, b].filter keeps) (s : List Char) :
    (replacePair a b new s).filter keeps = s.filter keeps := by
  fun_induction replacePair a b new s with
  | case1 x y rest pair induction =>
      obtain ⟨rfl, rfl⟩ := pair
      rw [List.filter_append, same, induction, ← List.filter_append]
      rfl
  | case2 x y rest _ induction => rw [List.filter_cons, induction, ← List.filter_cons]
  | case3 s _ => rfl

end Text
end HeaderBinding
