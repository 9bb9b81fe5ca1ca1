/-!
# Writing indented text

Generated text is written line by line. A line that opens a block ends in a brace, the lines that
follow are indented one step deeper, and a call of its own closes the block again. What is to be
written is a list of calls, and nothing in it keeps opening and closing calls together.
-/

namespace HeaderBinding

/-- Text that is being written. -/
structure Writer where
  /-- Steps by which the next line is indented. -/
  depth : Nat := 0
  text : String := ""
  deriving DecidableEq, Repr, Inhabited

namespace Writer

/-- One step of indentation. -/
def step : String := "    "

/-- Indent the lines that follow one step more. -/
def indent (w : Writer) : Writer :=
  { w with depth := w.depth + 1 }

/-- Indent the lines that follow one step less, if they are indented. -/
def dedent (w : Writer) : Writer :=
  { w with depth := w.depth - 1 }

/-- Write text as it is. -/
def write (w : Writer) (text : String) : Writer :=
  { w with text := w.text ++ text }

/-- Write the indentation of a line. -/
def writeIndent (w : Writer) : Writer :=
  w.write (String.join (List.replicate w.depth step))

/-- End the line. -/
def newline (w : Writer) : Writer :=
  w.write "\n"

/-- Write an indented line. -/
def line (w : Writer) (text : String) : Writer :=
  (w.writeIndent.write text).newline

/-- Write a line without indentation. -/
def flushLine (w : Writer) (text : String) : Writer :=
  (w.write text).newline

/-- Open a block. -/
def openBlock (w : Writer) (head : String) : Writer :=
  (w.line (head ++ " \x7b")).indent

/-- Close a block. -/
def closeBlock (w : Writer) (tail : String) : Writer :=
  w.dedent.line tail

/-- Start over with empty text at the same indentation. -/
def cleared (w : Writer) : Writer :=
  { w with text := "" }

/-- A call of the writer. -/
inductive Call where
  | line (text : String)
  /-- A line that is not indented. -/
  | flushLine (text : String)
  /-- An empty line. -/
  | newline
  | openBlock (head : String)
  | closeBlock (tail : String)
  deriving DecidableEq, Repr, Inhabited

/-- Do what a call says. -/
def perform (w : Writer) : Call → Writer
  | .line text => w.line text
  | .flushLine text => w.flushLine text
  | .newline => w.newline
  | .openBlock head => w.openBlock head
  | .closeBlock tail => w.closeBlock tail

/-- Do what calls say, one after the other. -/
def performAll (w : Writer) (calls : List Call) : Writer :=
  calls.foldl perform w

/-- The text that calls write. -/
def written (calls : List Call) : String :=
  (({} : Writer).performAll calls).text

end Writer
end HeaderBinding
