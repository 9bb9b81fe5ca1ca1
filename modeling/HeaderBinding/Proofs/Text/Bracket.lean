import Mathlib.Data.List.Basic

/-!
# Matching brackets

A text in which every bracket has its match, for one kind of brackets.
-/

namespace HeaderBinding
namespace Text

variable {opening closing : Char} {s before after : List Char}

/-- Every bracket has its match. -/
inductive Balanced (opening closing : Char) : List Char → Prop
  | nil : Balanced opening closing []
  | other {c : Char} {rest : List Char} (not_opening : c ≠ opening) (not_closing : c ≠ closing)
      (rest_balanced : Balanced opening closing rest) : Balanced opening closing (c :: rest)
  | pair {inner rest : List Char} (inner_balanced : Balanced opening closing inner)
      (rest_balanced : Balanced opening closing rest) :
      Balanced opening closing (opening :: inner ++ closing :: rest)

namespace Balanced

theorem of_notMem (unopened : opening ∉ s) (unclosed : closing ∉ s) :
    Balanced opening closing s := by
  induction s with
  | nil => exact .nil
  | cons c rest induction =>
      rw [List.mem_cons, not_or] at unopened unclosed
      exact .other (Ne.symm unopened.1) (Ne.symm unclosed.1) (induction unopened.2 unclosed.2)

/-- A bracket is opened before one is closed. -/
theorem mem_before (balanced : Balanced opening closing s) (distinct : opening ≠ closing)
    (split : s = before ++ closing :: after) : opening ∈ before := by
  induction balanced generalizing before with
  | nil => simp at split
  | other not_opening not_closing _ induction =>
      cases before with
      | nil => exact absurd (List.cons.inj split).1 not_closing
      | cons first before => exact List.mem_cons_of_mem _ (induction (List.cons.inj split).2)
  | pair _ _ _ _ =>
      cases before with
      | nil => exact absurd (List.cons.inj split).1 distinct
      | cons first before =>
          rw [← (List.cons.inj split).1]
          exact List.mem_cons_self

theorem mem_opening_iff (balanced : Balanced opening closing s) (distinct : opening ≠ closing) :
    opening ∈ s ↔ closing ∈ s := by
  constructor
  · intro opened
    induction balanced with
    | nil => cases opened
    | other not_opening _ _ induction =>
        have later := (List.mem_cons.mp opened).resolve_left (Ne.symm not_opening)
        exact List.mem_cons_of_mem _ (induction later)
    | pair _ _ _ _ => simp
  · intro closed
    obtain ⟨before, after, split⟩ := List.append_of_mem closed
    rw [split]
    exact List.mem_append_left _ (balanced.mem_before distinct split)

end Balanced

end Text

end HeaderBinding
