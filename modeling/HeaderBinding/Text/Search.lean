/-!
# Finding and replacing pieces of text

A text is cut at a separator or into lines, a pair of characters is looked for, and all its
occurrences are replaced from left to right without overlap.
-/

namespace HeaderBinding
namespace Text

/-- The pieces between the occurrences of `separator`; there is one more piece than occurrences. -/
def pieces (separator : Char) : List Char → List (List Char)
  | [] => [[]]
  | c :: rest =>
      if c = separator then [] :: pieces separator rest
      else
        match pieces separator rest with
        | [] => [[c]]
        | piece :: later => (c :: piece) :: later

/-- The part before the first `mark` and the part after it. -/
def cut? (mark : Char) : List Char → Option (List Char × List Char)
  | [] => none
  | c :: rest =>
      if c = mark then some ([], rest)
      else (cut? mark rest).map fun (before, after) => (c :: before, after)

theorem cut?_eq_some {mark : Char} {s before after : List Char} :
    cut? mark s = some (before, after) ↔ mark ∉ before ∧ s = before ++ mark :: after := by
  induction s generalizing before with
  | nil => simp [cut?]
  | cons c rest induction =>
      by_cases same : c = mark
      · subst same
        cases before with
        | nil => simp [cut?]
        | cons first before =>
            simp only [cut?, if_true, Option.some.injEq, Prod.mk.injEq, reduceCtorEq, false_and,
              List.mem_cons, List.cons_append, List.cons.injEq, false_iff]
            rintro ⟨absent, same, -⟩
            exact absent (.inl same)
      · rw [cut?, if_neg same, Option.map_eq_some_iff]
        constructor
        · rintro ⟨⟨front, later⟩, found, cut⟩
          obtain ⟨rfl, rfl⟩ : c :: front = before ∧ later = after := by simpa using cut
          obtain ⟨absent, rfl⟩ := induction.mp found
          exact ⟨by simp [absent, Ne.symm same], rfl⟩
        · rintro ⟨absent, split⟩
          cases before with
          | nil =>
              obtain ⟨rfl, -⟩ := List.cons.inj split
              exact absurd rfl same
          | cons first before =>
              obtain ⟨rfl, rest_eq⟩ := List.cons.inj split
              exact ⟨(before, after),
                induction.mpr ⟨fun listed => absent (List.mem_cons_of_mem _ listed), rest_eq⟩, rfl⟩

/-- The characters `a` and `b` stand side by side somewhere. -/
def hasPair (a b : Char) : List Char → Bool
  | x :: y :: rest => (x == a && y == b) || hasPair a b (y :: rest)
  | _ => false

/-- The part before the first occurrence of `a` and `b` side by side and the part after it. -/
def cutPair? (a b : Char) : List Char → Option (List Char × List Char)
  | x :: y :: rest =>
      if x = a ∧ y = b then some ([], rest)
      else (cutPair? a b (y :: rest)).map fun (before, after) => (x :: before, after)
  | _ => none

/-- Put `new` in the place of each occurrence of `a` and `b` side by side, from left to right and
without overlap. -/
def replacePair (a b : Char) (new : List Char) : List Char → List Char
  | x :: y :: rest =>
      if x = a ∧ y = b then new ++ replacePair a b new rest
      else x :: replacePair a b new (y :: rest)
  | s => s

/-- The lines of a text, `line` holding the open one backwards. -/
def linesFrom (line : List Char) : List Char → List (List Char)
  | [] => if line.isEmpty then [] else [line.reverse]
  | c :: rest =>
      if c = '\n' then
        (match line with
          | '\r' :: body => body
          | body => body).reverse :: linesFrom [] rest
      else linesFrom (c :: line) rest

/-- The lines of a text. A line feed ends a line and is dropped, together with one carriage return
before it; what follows the last line feed is a line unless it is empty. -/
def lines (s : List Char) : List (List Char) :=
  linesFrom [] s

end Text
end HeaderBinding
