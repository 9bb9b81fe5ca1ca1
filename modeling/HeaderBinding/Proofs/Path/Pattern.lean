import HeaderBinding.Path.Pattern

/-!
# What patterns match

A name is matched by working out, for each of its suffixes, whether the rest of the tokens match it.
Main statement: `matchName_iff`, this finds out whether the tokens match the name one by one, those
for any number of characters taking some of its front.
-/

namespace HeaderBinding
namespace Path

/-- The tokens match the whole of a name, one after the other. -/
inductive Matches : List Token → List Char → Prop where
  | nil : Matches [] []
  | single {token : Token} {tokens : List Token} {c : Char} {name : List Char}
      (one : token.isSequence = false) (accepts : token.accepts c) (rest : Matches tokens name) :
      Matches (token :: tokens) (c :: name)
  | sequence {token : Token} {tokens : List Token} {name later : List Char}
      (any : token.isSequence = true) (inside : later <:+ name) (rest : Matches tokens later) :
      Matches (token :: tokens) name

/-! ## Rows -/

theorem length_anyLater (row : List Bool) : (anyLater row).length = row.length := by
  induction row with
  | nil => rfl
  | cons flag rest ih => simp [anyLater, ih]

theorem tail_anyLater (row : List Bool) : (anyLater row).tail = anyLater row.tail := by
  cases row <;> rfl

theorem matchRow_nil (name : List Char) :
    matchRow [] name = name.map (fun _ => false) ++ [true] := rfl

theorem matchRow_cons (token : Token) (tokens : List Token) (name : List Char) :
    matchRow (token :: tokens) name = token.rowBefore name (matchRow tokens name) := rfl

theorem length_matchRow (tokens : List Token) (name : List Char) :
    (matchRow tokens name).length = name.length + 1 := by
  induction tokens with
  | nil => simp [matchRow_nil]
  | cons token tokens ih =>
      rw [matchRow_cons, Token.rowBefore]
      split
      · rw [length_anyLater, ih]
      · simp [ih]

/-- A row has an entry of its own for each suffix. -/
theorem tail_matchRow (tokens : List Token) (c : Char) (name : List Char) :
    (matchRow tokens (c :: name)).tail = matchRow tokens name := by
  induction tokens with
  | nil => rfl
  | cons token tokens ih =>
      simp only [matchRow_cons, Token.rowBefore]
      split
      · rw [tail_anyLater, ih]
      · have length := length_matchRow tokens name
        rw [ih]
        cases row : matchRow tokens name with
        | nil => simp [row] at length
        | cons flag rest => simp

theorem matchName_nil (name : List Char) : matchName [] name = name.isEmpty := by
  cases name <;> rfl

theorem matchName_cons_nil {token : Token} (single : token.isSequence = false)
    (tokens : List Token) : matchName (token :: tokens) [] = false := by
  simp [matchName, matchRow_cons, Token.rowBefore, single]

theorem matchName_cons_cons {token : Token} (single : token.isSequence = false)
    (tokens : List Token) (c : Char) (name : List Char) :
    matchName (token :: tokens) (c :: name) = (token.accepts c && matchName tokens name) := by
  have length := length_matchRow tokens name
  simp only [matchName, matchRow_cons, Token.rowBefore, single, tail_matchRow]
  cases row : matchRow tokens name with
  | nil => simp [row] at length
  | cons flag rest => simp

theorem headD_anyLater (row : List Bool) : (anyLater row).headD false = row.any id := by
  induction row with
  | nil => rfl
  | cons flag rest ih => rw [anyLater, List.headD_cons, ih, List.any_cons, id]

/-- A token for any number of characters leaves some suffix of the name to the later tokens. -/
theorem matchName_sequence {token : Token} (sequence : token.isSequence = true)
    (tokens : List Token) (name : List Char) :
    matchName (token :: tokens) name = true ↔
      ∃ later, later <:+ name ∧ matchName tokens later = true := by
  simp only [matchName, matchRow_cons, Token.rowBefore, sequence, if_true, headD_anyLater]
  induction name with
  | nil =>
      have length := length_matchRow tokens []
      match row : matchRow tokens [], length with
      | [flag], _ => simp [row]
  | cons c name ih =>
      rw [← tail_matchRow tokens c name] at ih
      have length := length_matchRow tokens (c :: name)
      cases row : matchRow tokens (c :: name) with
      | nil => simp [row] at length
      | cons flag rest =>
          simp only [row, List.tail_cons] at ih
          simp only [List.any_cons, id_eq, Bool.or_eq_true, ih, List.suffix_cons_iff]
          constructor
          · rintro (whole | ⟨later, inside, found⟩)
            · exact ⟨c :: name, .inl rfl, by simp [row, whole]⟩
            · exact ⟨later, .inr inside, found⟩
          · rintro ⟨later, rfl | inside, found⟩
            · exact .inl (by simpa [row] using found)
            · exact .inr ⟨later, inside, found⟩

/-! ## Names -/

theorem matchName_iff {tokens : List Token} {name : List Char} :
    matchName tokens name = true ↔ Matches tokens name := by
  induction tokens generalizing name with
  | nil =>
      rw [matchName_nil, List.isEmpty_iff]
      constructor
      · rintro rfl
        exact .nil
      · rintro ⟨⟩
        rfl
  | cons token tokens induction =>
      cases any : token.isSequence with
      | true =>
          rw [matchName_sequence any]
          constructor
          · rintro ⟨later, inside, found⟩
            exact .sequence any inside (induction.mp found)
          · intro matched
            cases matched with
            | single one => simp [any] at one
            | sequence _ inside rest => exact ⟨_, inside, induction.mpr rest⟩
      | false =>
          cases name with
          | nil =>
              rw [matchName_cons_nil any]
              refine iff_of_false Bool.false_ne_true fun matched => ?_
              cases matched with
              | sequence sequence => simp [any] at sequence
          | cons c name =>
              rw [matchName_cons_cons any, Bool.and_eq_true, induction]
              constructor
              · rintro ⟨accepts, rest⟩
                exact .single any accepts rest
              · intro matched
                cases matched with
                | single _ accepts rest => exact ⟨accepts, rest⟩
                | sequence sequence => simp [any] at sequence

end Path
end HeaderBinding
