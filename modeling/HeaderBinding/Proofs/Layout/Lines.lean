import HeaderBinding.Writer

/-!
# Lines of generated text

Each call of the writer writes one line, at a depth that the calls before it have led to. A layout
says the same of text whose blocks are closed: its lines stand in blocks, and the lines of a block
are indented one step more than those around it.
-/

namespace HeaderBinding

/-- The text of lines, each of which is ended. -/
def Text.unlines (lines : List String) : String :=
  String.join (lines.map (· ++ "\n"))

namespace Text

@[simp]
theorem unlines_nil : unlines [] = "" :=
  rfl

theorem unlines_append (first second : List String) :
    unlines (first ++ second) = unlines first ++ unlines second := by
  rw [unlines, List.map_append, String.join_append, unlines, unlines]

theorem unlines_singleton (line : String) : unlines [line] = line ++ "\n" := by
  simp [unlines, String.join]

theorem unlines_cons (line : String) (rest : List String) :
    unlines (line :: rest) = line ++ "\n" ++ unlines rest := by
  rw [← List.singleton_append, unlines_append, unlines_singleton]

/-- Lines without line ends can be read off their text. -/
theorem splitOn_unlines {lines : List String} (single : ∀ line ∈ lines, '\n' ∉ line.toList) :
    (unlines lines).toList.splitOn '\n' = (lines ++ [""]).map String.toList := by
  have written : (unlines lines).toList =
      ['\n'].intercalate ((lines ++ [""]).map String.toList) := by
    induction lines with
    | nil => rfl
    | cons line rest induction =>
        have later := induction fun other member => single other (List.mem_cons_of_mem _ member)
        rw [unlines_cons, List.cons_append, List.map_cons,
          List.intercalate_cons_of_ne_nil (by simp), ← later]
        simp
  have apart : ∀ letters ∈ (lines ++ [""]).map String.toList, '\n' ∉ letters := by
    intro letters member
    obtain ⟨line, listed, rfl⟩ := List.mem_map.mp member
    rcases List.mem_append.mp listed with written | last
    · exact single line written
    · obtain rfl := List.mem_singleton.mp last
      simp
  rw [written]
  exact List.splitOn_intercalate _ apart (by simp)

end Text

/-- A piece of generated text. -/
inductive Layout where
  /-- A line, indented like the lines around it. -/
  | line (text : String)
  /-- A line that is not indented. -/
  | flushLine (text : String)
  /-- An empty line. -/
  | blank
  /-- A block between the line that opens it and the line that closes it. -/
  | block (head : String) (body : List Layout) (tail : String)
  deriving Repr, Inhabited, BEq

namespace Layout

open Text

/-- So many steps of indentation. -/
def indentation (depth : Nat) : String :=
  String.join (List.replicate depth Writer.step)

theorem indentation_zero : indentation 0 = "" :=
  rfl

theorem indentation_succ (depth : Nat) :
    indentation (depth + 1) = Writer.step ++ indentation depth := by
  rw [indentation, List.replicate_succ, String.join_cons, indentation]

theorem eq_of_mem_indentation {depth : Nat} {c : Char}
    (member : c ∈ (indentation depth).toList) : c = ' ' := by
  induction depth with
  | zero => simp [indentation_zero] at member
  | succ depth induction =>
      rw [indentation_succ, String.toList_append, List.mem_append] at member
      rcases member with first | later
      · simpa [Writer.step] using first
      · exact induction later

mutual

/-- The lines of a piece of text in which nothing is indented less than `depth` steps, apart from
lines without indentation. -/
def lines (depth : Nat) : Layout → List String
  | .line text => [indentation depth ++ text]
  | .flushLine text => [text]
  | .blank => [""]
  | .block head body tail =>
      (indentation depth ++ (head ++ " \x7b")) :: linesOf (depth + 1) body ++
        [indentation depth ++ tail]

/-- The lines of pieces of text. -/
def linesOf (depth : Nat) : List Layout → List String
  | [] => []
  | piece :: rest => piece.lines depth ++ linesOf depth rest

end

/-- The text of a list of pieces. -/
def render (pieces : List Layout) : String :=
  unlines (linesOf 0 pieces)

/-- Pieces with an empty line behind them, if there are any. -/
def paragraph (pieces : List Layout) : List Layout :=
  if pieces.isEmpty then [] else pieces ++ [.blank]

theorem linesOf_eq_flatMap (depth : Nat) (pieces : List Layout) :
    linesOf depth pieces = pieces.flatMap (lines depth) := by
  induction pieces with
  | nil => rfl
  | cons piece rest induction => rw [linesOf, induction, List.flatMap_cons]

theorem linesOf_append (depth : Nat) (first second : List Layout) :
    linesOf depth (first ++ second) = linesOf depth first ++ linesOf depth second := by
  simp only [linesOf_eq_flatMap, List.flatMap_append]

theorem linesOf_flatMap {Item : Type} (depth : Nat) (items : List Item)
    (pieces : Item → List Layout) :
    linesOf depth (items.flatMap pieces) =
      items.flatMap fun item => linesOf depth (pieces item) := by
  simp only [linesOf_eq_flatMap, List.flatMap_assoc]

theorem linesOf_map_line {Item : Type} (depth : Nat) (items : List Item) (text : Item → String) :
    linesOf depth (items.map fun item => .line (text item)) =
      items.map fun item => indentation depth ++ text item := by
  rw [linesOf_eq_flatMap, List.flatMap_map, List.map_eq_flatMap]
  simp only [lines]

theorem linesOf_paragraph {Item : Type} (depth : Nat) (items : List Item) (text : Item → String) :
    linesOf depth (paragraph (items.map fun item => .line (text item))) =
      (items.map fun item => indentation depth ++ text item) ++
        if items.isEmpty then [] else [""] := by
  rw [paragraph, List.isEmpty_map]
  split
  · rename_i empty
    rw [List.isEmpty_iff.mp empty]
    rfl
  · rw [linesOf_append, linesOf_map_line]
    rfl

end Layout

namespace Writer

open Layout Text

namespace Call

/-- The line that a call writes at some depth. -/
def lineAt (depth : Nat) : Call → String
  | .line text => indentation depth ++ text
  | .flushLine text => text
  | .newline => ""
  | .openBlock head => indentation depth ++ (head ++ " \x7b")
  | .closeBlock tail => indentation (depth - 1) ++ tail

/-- The depth after a call. -/
def depthAfter (depth : Nat) : Call → Nat
  | .line _ | .flushLine _ | .newline => depth
  | .openBlock _ => depth + 1
  | .closeBlock _ => depth - 1

end Call

/-- The lines that calls write, from some depth on. -/
def writtenLines (depth : Nat) : List Call → List String
  | [] => []
  | call :: rest => call.lineAt depth :: writtenLines (call.depthAfter depth) rest

theorem line_eq (w : Writer) (text : String) :
    w.line text = { w with text := w.text ++ unlines [indentation w.depth ++ text] } := by
  simp only [line, writeIndent, write, newline, unlines_singleton, indentation,
    String.append_assoc]

theorem perform_eq (w : Writer) (call : Call) :
    w.perform call = ⟨call.depthAfter w.depth, w.text ++ unlines [call.lineAt w.depth]⟩ := by
  cases call with
  | line text => exact w.line_eq text
  | flushLine text =>
      rw [perform, flushLine, newline, write, write, String.append_assoc, Call.lineAt,
        unlines_singleton]
      rfl
  | newline =>
      rw [perform, newline, write, Call.lineAt, unlines_singleton, String.empty_append]
      rfl
  | openBlock head =>
      rw [perform, openBlock, line_eq]
      rfl
  | closeBlock tail =>
      rw [perform, closeBlock, line_eq]
      rfl

theorem performAll_cons (w : Writer) (call : Call) (rest : List Call) :
    w.performAll (call :: rest) = (w.perform call).performAll rest :=
  rfl

theorem performAll_append (w : Writer) (first second : List Call) :
    w.performAll (first ++ second) = (w.performAll first).performAll second :=
  List.foldl_append

theorem text_performAll (w : Writer) (calls : List Call) :
    (w.performAll calls).text = w.text ++ unlines (writtenLines w.depth calls) := by
  induction calls generalizing w with
  | nil => rw [writtenLines, unlines_nil, String.append_empty, performAll, List.foldl_nil]
  | cons call rest induction =>
      rw [performAll_cons, induction, perform_eq, unlines_singleton, writtenLines, unlines_cons,
        String.append_assoc]

/-- Text that is written consists of the lines that the calls write. -/
theorem written_eq (calls : List Call) : written calls = unlines (writtenLines 0 calls) := by
  rw [written, text_performAll, String.empty_append]

end Writer
end HeaderBinding
