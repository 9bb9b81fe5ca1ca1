import HeaderBinding.Proofs.Wrapper.Layout

/-!
# Indentation of generated code

Code is generated by calls of the writer, of which some open and some close blocks. Each condition
that a statement stands under indents its lines one step more, and after a statement the writer is
indented as it was before. All generated files are written so, from no indentation back to none.
Main statement: `balanced_indentation`.
-/

namespace HeaderBinding
namespace Wrapper

open Layout
open Text (unlines)
open Writer (Steady Writes writtenLines)

mutual

/-- The lines of a statement, each with the number of conditions in it that it stands under. -/
def Stmt.rows : Stmt → List (Nat × String)
  | .comment text => [(0, s!"// {text}")]
  | .todo text => [(0, s!"// TODO: {text}")]
  | .declare type name => [(0, s!"{type} {name}" ++ "\x7b\x7d;")]
  | .expr value => [(0, value.code ++ ";")]
  | .bind name value => [(0, s!"auto {name} = " ++ value.code ++ ";")]
  | .ret none => [(0, "return;")]
  | .ret (some value) => [(0, "return " ++ value.code ++ ";")]
  | .report message => [(0, "ERR_PRINT(\"" ++ escaped message ++ "\");")]
  | .guard condition body =>
      (0, "if (" ++ condition.code ++ ")" ++ " \x7b") ::
        (rowsAll body).map (fun row => (row.1 + 1, row.2)) ++ [(0, "\x7d")]

/-- The lines of statements, each with the number of conditions that it stands under. -/
def rowsAll : List Stmt → List (Nat × String)
  | [] => []
  | stmt :: rest => stmt.rows ++ rowsAll rest

end

/-- A line as it stands in code that is indented `depth` steps. -/
def rowText (depth : Nat) (row : Nat × String) : String :=
  indentation (depth + row.1) ++ row.2

theorem rowText_succ (depth : Nat) (row : Nat × String) :
    rowText depth (row.1 + 1, row.2) = rowText (depth + 1) row := by
  rw [rowText, rowText, Nat.add_right_comm, Nat.add_assoc]

mutual

theorem lines_layout (depth : Nat) : (stmt : Stmt) →
    stmt.layout.lines depth = stmt.rows.map (rowText depth)
  | .comment _ | .todo _ | .declare _ _ | .expr _ | .bind _ _ | .ret none | .ret (some _)
  | .report _ => by
      rw [Stmt.layout, lines, Stmt.rows]
      rfl
  | .guard condition body => by
      have inner : (rowsAll body).map (rowText (depth + 1)) =
          ((rowsAll body).map fun row => (row.1 + 1, row.2)).map (rowText depth) := by
        rw [List.map_map]
        exact List.map_congr_left fun row _ => (rowText_succ depth row).symm
      rw [Stmt.layout, lines, Stmt.rows, linesOf_layoutAll (depth + 1) body, inner, List.map_append,
        List.map_cons]
      rfl

theorem linesOf_layoutAll (depth : Nat) : (body : List Stmt) →
    linesOf depth (layoutAll body) = (rowsAll body).map (rowText depth)
  | [] => by
      rw [layoutAll, linesOf, rowsAll]
      rfl
  | stmt :: rest => by
      rw [layoutAll, linesOf, rowsAll, List.map_append, lines_layout depth stmt,
        linesOf_layoutAll depth rest]

end

/-! ## Balance -/

theorem steady_bodyCalls (body : List Stmt) : Steady (bodyCalls body) := by
  rw [bodyCalls_eq]
  exact steady_callsOf _

theorem Method.steady_definitionCalls (className : String) (method : Method) :
    Steady (method.definitionCalls className) := by
  rw [definitionCalls_eq]
  exact steady_calls _

namespace Class

theorem steady_bindingCalls (wrapper : Class) : Steady wrapper.bindingCalls := by
  rw [bindingCalls_eq]
  exact steady_calls _

theorem steady_headerCalls (wrapper : Class) (utilsName : String) :
    Steady (wrapper.headerCalls utilsName) := by
  rw [headerCalls_eq]
  exact steady_callsOf _

theorem steady_sourceCalls (wrapper : Class) (includes : List String) :
    Steady (wrapper.sourceCalls includes) := by
  rw [sourceCalls_eq]
  exact steady_callsOf _

end Class

namespace Shared

theorem steady_utilsCalls (family : String) : Steady (utilsCalls family) := by
  rw [utilsCalls_eq]
  exact steady_callsOf _

theorem steady_registerHeaderCalls (family : String) : Steady (registerHeaderCalls family) := by
  rw [registerHeaderCalls_eq]
  exact steady_callsOf _

theorem steady_registerSourceCalls (family : String) (classNames : List String) :
    Steady (registerSourceCalls family classNames) := by
  rw [registerSourceCalls_eq]
  exact steady_callsOf _

end Shared

/-- The calls for statements write their rows. -/
theorem writes_bodyCalls (body : List Stmt) (w : Writer) : Writes w (bodyCalls body)
    { w with text := w.text ++ unlines ((rowsAll body).map (rowText w.depth)) } := by
  rw [← linesOf_layoutAll, ← writtenLines_callsOf, ← bodyCalls_eq]
  exact (steady_bodyCalls body).writes w

/-- Every generated file is written by calls that begin and end without indentation and never dedent
where there is none. From any depth, the bindings, the definition of a function and any statements
add their lines and lead back to it, and the lines of statements are indented one step more for
every condition that they stand under. -/
theorem balanced_indentation :
    (∀ (wrapper : Class) (utilsName : String) (includes : List String),
      Writes {} (wrapper.headerCalls utilsName) ⟨0, wrapper.header utilsName⟩ ∧
        Writes {} (wrapper.sourceCalls includes) ⟨0, wrapper.source includes⟩) ∧
    (∀ (family : String) (classNames : List String),
      Writes {} (Shared.utilsCalls family) ⟨0, Shared.utils family⟩ ∧
        Writes {} (Shared.registerHeaderCalls family) ⟨0, Shared.registerHeader family⟩ ∧
        Writes {} (Shared.registerSourceCalls family classNames)
          ⟨0, Shared.registerSource family classNames⟩) ∧
    ∀ w : Writer,
      (∀ wrapper : Class, Writes w wrapper.bindingCalls
        { w with text := w.text ++ unlines (writtenLines w.depth wrapper.bindingCalls) }) ∧
        (∀ (className : String) (method : Method),
          let calls := method.definitionCalls className
          Writes w calls { w with text := w.text ++ unlines (writtenLines w.depth calls) }) ∧
        ∀ body : List Stmt, Writes w (bodyCalls body)
          { w with text := w.text ++ unlines ((rowsAll body).map (rowText w.depth)) } := by
  refine ⟨fun wrapper utilsName includes => ⟨?_, ?_⟩,
    fun family classNames => ⟨?_, ?_, ?_⟩, fun w => ⟨fun wrapper => ?_, fun className method => ?_,
      fun body => writes_bodyCalls body w⟩⟩
  · exact (wrapper.steady_headerCalls utilsName).writes_written
  · exact (wrapper.steady_sourceCalls includes).writes_written
  · exact (Shared.steady_utilsCalls family).writes_written
  · exact (Shared.steady_registerHeaderCalls family).writes_written
  · exact (Shared.steady_registerSourceCalls family classNames).writes_written
  · exact wrapper.steady_bindingCalls.writes w
  · exact (method.steady_definitionCalls className).writes w

/-- The lines of a condition in a condition. -/
example :
    rowsAll [.guard .handleOwned [.guard (.argumentMissing "p") [.ret none], .expr .destroy]] =
      [(0, "if (this->native && this->owned) \x7b"), (1, "if (!p) \x7b"), (2, "return;"),
        (1, "\x7d"), (1, "this->destroy();"), (0, "\x7d")] := by
  decide

end Wrapper
end HeaderBinding
