import HeaderBinding.Text.Blank

/-!
# Taking text off the ends

A given text is taken off the front or the back of another one, if it stands there.
-/

namespace HeaderBinding
namespace Text

/-- What follows `front` in a text that begins with it. -/
def dropFront? : List Char → List Char → Option (List Char)
  | [], s => some s
  | _ :: _, [] => none
  | p :: front, c :: s => if p = c then dropFront? front s else none

/-- What precedes `back` in a text that ends with it. -/
def dropBack? (back s : List Char) : Option (List Char) :=
  (dropFront? back.reverse s.reverse).map List.reverse

theorem dropFront?_eq_some {front s rest : List Char} :
    dropFront? front s = some rest ↔ s = front ++ rest := by
  induction front generalizing s with
  | nil => simp [dropFront?, eq_comm]
  | cons p front ih =>
      cases s with
      | nil => simp [dropFront?]
      | cons c s =>
          by_cases same : p = c
          · simp [dropFront?, same, ih]
          · simp [dropFront?, same, Ne.symm same]

theorem dropBack?_eq_some {back s rest : List Char} :
    dropBack? back s = some rest ↔ s = rest ++ back := by
  simp only [dropBack?, Option.map_eq_some_iff, dropFront?_eq_some]
  constructor
  · rintro ⟨front, reversed, rfl⟩
    have := congrArg List.reverse reversed
    simpa using this
  · rintro rfl
    exact ⟨rest.reverse, by simp, by simp⟩

/-- What follows `front` and a blank, without the blanks. -/
def dropFrontWord? (front s : List Char) : Option (List Char) :=
  ((dropFront? front s).filter startsBlank).map trimStart

theorem length_dropFrontWord?_lt {front s rest : List Char} (front_ne : front ≠ [])
    (found : dropFrontWord? front s = some rest) : rest.length < s.length := by
  simp only [dropFrontWord?, Option.map_eq_some_iff, Option.filter_eq_some_iff,
    dropFront?_eq_some] at found
  obtain ⟨later, ⟨rfl, -⟩, rfl⟩ := found
  have kept := length_trimStart_le later
  have := List.length_pos_iff.mpr front_ne
  simp only [List.length_append]
  omega

end Text
end HeaderBinding
