import HeaderBinding.Proofs.Text.Pair
import HeaderBinding.Proofs.Text.Piece
import HeaderBinding.Wrapper.Text

/-!
# Text that is embedded in generated code

Messages stand in string literals and remarks on parameters in comments. Main statement:
`embedded_text_ends`, whatever the text is, its literal is read back as the text and its comment
ends with the mark that is written behind it, and neither goes any further.
-/

namespace HeaderBinding
namespace Wrapper

open Text

/-! ## String literals -/

/-- What a character stands for behind a backslash. -/
def escapeOf? (c : Char) : Option Char :=
  if c = '"' ∨ c = '\\' then some c else if c = 'n' then some '\n' else none

/-- Read a string literal from behind its opening quote: its text, and what follows the quote that
closes it. It may not have a line feed in it. The last character may have been the backslash of an
escape. -/
def literalBody? (escaping : Bool) : List Char → Option (List Char × List Char)
  | [] => none
  | c :: rest =>
      if escaping then do
        let meant ← escapeOf? c
        let (text, after) ← literalBody? false rest
        return (meant :: text, after)
      else if c = '"' then some ([], rest)
      else if c = '\n' then none
      else if c = '\\' then literalBody? true rest
      else do
        let (text, after) ← literalBody? false rest
        return (c :: text, after)

/-- Read a string literal. -/
def literal? : List Char → Option (List Char × List Char)
  | [] => none
  | c :: rest => if c = '"' then literalBody? false rest else none

/-- A text between quotes. -/
def literal (text : String) : String :=
  "\"" ++ escaped text ++ "\""

/-- Each character is read back from how it is written. -/
theorem literalBody?_escapedChar (c : Char) (rest : List Char) :
    literalBody? false (escapedChar c ++ rest) =
      (literalBody? false rest).bind fun (text, after) => some (c :: text, after) := by
  unfold escapedChar
  split
  · simp [literalBody?, escapeOf?]
  · simp [literalBody?, escapeOf?]
  · simp [literalBody?, escapeOf?]
  · rename_i not_quote not_backslash not_feed
    rw [List.singleton_append, literalBody?, if_neg (by decide), if_neg not_quote, if_neg not_feed,
      if_neg not_backslash]
    rfl

/-- Whatever follows a literal, its text is read back and nothing of what follows is. -/
theorem literal?_literal (text : String) (rest : List Char) :
    literal? ((literal text).toList ++ rest) = some (text.toList, rest) := by
  have body : literalBody? false (text.toList.flatMap escapedChar ++ '"' :: rest) =
      some (text.toList, rest) := by
    induction text.toList with
    | nil => simp [literalBody?]
    | cons c later induction =>
        rw [List.flatMap_cons, List.append_assoc, literalBody?_escapedChar, induction,
          Option.bind_some]
  have written : (literal text).toList ++ rest =
      '"' :: (text.toList.flatMap escapedChar ++ '"' :: rest) := by
    simp [literal, escaped]
  rw [written, literal?, if_pos rfl, body]

theorem notMem_literal (text : String) : '\n' ∉ (literal text).toList := by
  have apart (c : Char) : '\n' ∉ escapedChar c := by
    unfold escapedChar
    split
    · decide
    · decide
    · decide
    · rename_i not_feed
      simpa using Ne.symm not_feed
  simp [literal, escaped, apart]

/-! ## Comments -/

/-- Read a comment: what stands between its marks, and what follows it. -/
def comment? : List Char → Option (List Char × List Char)
  | '/' :: '*' :: rest => cutPair? '*' '/' rest
  | _ => none

/-- What stands between the marks of the comment of a remark. -/
def commentBody (note : String) : String :=
  " " ++ String.ofList (replacePair '*' '/' ['*', ' ', '/'] note.toList) ++ " "

theorem noteComment_eq (note : String) : noteComment note = "/*" ++ commentBody note ++ "*/" := by
  simp [noteComment, commentBody, ← String.toList_inj]

/-- Apart from blanks, the remark itself stands between the marks. -/
theorem filter_commentBody (note : String) :
    (commentBody note).toList.filter (· ≠ ' ') = note.toList.filter (· ≠ ' ') := by
  have kept : (replacePair '*' '/' ['*', ' ', '/'] note.toList).filter (· ≠ ' ') =
      note.toList.filter (· ≠ ' ') :=
    filter_replacePair (by decide) note.toList
  simpa [commentBody] using kept

/-- The comment of a remark ends with the mark that is written behind the remark. -/
theorem comment?_noteComment (note : String) (rest : List Char) :
    comment? ((noteComment note).toList ++ rest) = some ((commentBody note).toList, rest) := by
  have body : (commentBody note).toList =
      ' ' :: replacePair '*' '/' ['*', ' ', '/'] note.toList ++ [' '] := by
    simp [commentBody]
  have absent : hasPair '*' '/' ((commentBody note).toList ++ ['*']) = false := by
    rw [hasPair_concat_of_ne (by decide), body, hasPair_concat_of_ne (by decide), hasPair_cons,
      hasPair_replacePair (by decide) (by decide) (by decide)]
    rfl
  have written : (noteComment note).toList ++ rest =
      '/' :: '*' :: ((commentBody note).toList ++ '*' :: '/' :: rest) := by
    simp [noteComment_eq]
  rw [written, comment?, cutPair?_append absent]

example : noteComment "from **// to" = "/* from ** // to */" := by decide

theorem paramList_append (before after : List Param) (param : Param) :
    paramList (before ++ param :: after) =
      String.join (before.map fun other => other.code ++ ", ") ++ paramList (param :: after) := by
  induction before with
  | nil => rw [List.nil_append, List.map_nil, String.join_nil, String.empty_append]
  | cons other before induction =>
      rw [List.cons_append, paramList, List.map_cons, String.intercalate_cons_of_ne_nil (by simp),
        ← paramList, induction, List.map_cons, String.join_cons, String.append_assoc,
        String.append_assoc, String.append_assoc]

theorem paramList_cons (param : Param) (after : List Param) :
    paramList (param :: after) =
      param.code ++ String.join (after.map fun other => ", " ++ other.code) := by
  rw [paramList, List.map_cons, intercalate_cons_eq_join, List.map_map]
  rfl

/-! ## Both -/

/-- A message is read back from its literal, in which no line ends. The comment around a remark ends
with the mark behind it, and between its marks stands the remark, broken up where it has such a mark
and the same apart from blanks. Nothing that follows belongs to the literal or the comment. -/
theorem embedded_text_ends :
    (∀ text rest, literal? ((literal text).toList ++ rest) = some (text.toList, rest) ∧
        '\n' ∉ (literal text).toList) ∧
      (∀ message, (Stmt.report message).calls =
        [.line ("ERR_PRINT(" ++ literal message ++ ");")]) ∧
      ∀ before after type name note,
        let back := String.join (after.map fun other => ", " ++ other.code)
        paramList (before ++ ⟨type, name, some note⟩ :: after) =
            String.join (before.map fun other => other.code ++ ", ") ++
              (type ++ " " ++ name ++ " " ++ noteComment note ++ back) ∧
          noteComment note = "/*" ++ commentBody note ++ "*/" ∧
          (commentBody note).toList.filter (· ≠ ' ') = note.toList.filter (· ≠ ' ') ∧
          comment? (noteComment note ++ back).toList =
            some ((commentBody note).toList, back.toList) := by
  refine ⟨fun text rest => ⟨literal?_literal text rest, notMem_literal text⟩, fun message => ?_,
    fun before after type name note =>
      ⟨?_, noteComment_eq note, filter_commentBody note, ?_⟩⟩
  · simp [Stmt.calls, literal, ← String.toList_inj]
  · rw [paramList_append, paramList_cons, Param.code]
    simp [toString]
  · rw [String.toList_append, comment?_noteComment]

end Wrapper
end HeaderBinding
