import HeaderBinding.Proofs.Layout.Lines

/-!
# Balanced calls of the writer

Calls that open and close blocks may be in any order. They are steady if they end at the depth at
which they began and no block is closed that they have not opened, so that the writer never dedents
where there is nothing to dedent. The calls for a layout are steady and write its lines.
-/

namespace HeaderBinding
namespace Writer

/-- The calls keep the depth, and each time that one of them closes a block, there is something to
dedent that one before it has indented. -/
structure Steady (calls : List Call) : Prop where
  depth_eq : ∀ w : Writer, (w.performAll calls).depth = w.depth
  depth_lt : ∀ (w : Writer) (before after : List Call) (tail : String),
    calls = before ++ .closeBlock tail :: after → w.depth < (w.performAll before).depth

namespace Steady

variable {first second calls : List Call}

theorem nil : Steady [] where
  depth_eq _ := rfl
  depth_lt _ before after tail split := by simp at split

theorem append (first_steady : Steady first) (second_steady : Steady second) :
    Steady (first ++ second) where
  depth_eq w := by rw [performAll_append, second_steady.depth_eq, first_steady.depth_eq]
  depth_lt w before after tail split := by
    rcases List.append_eq_append_iff.mp split with ⟨more, rfl, rest⟩ | ⟨more, rfl, rest⟩
    · rw [performAll_append, ← first_steady.depth_eq w]
      exact second_steady.depth_lt _ more after tail rest
    · cases more with
      | nil =>
          have all := second_steady.depth_lt (w.performAll before) [] after tail rest.symm
          exact absurd all (Nat.lt_irrefl _)
      | cons call more =>
          obtain ⟨rfl, -⟩ := List.cons.inj rest
          exact first_steady.depth_lt w before more tail rfl

/-- A call that only writes. -/
theorem singleton (call : Call) (keeps : ∀ w : Writer, (w.perform call).depth = w.depth)
    (writes : ∀ tail, call ≠ .closeBlock tail) : Steady [call] where
  depth_eq := keeps
  depth_lt w before after tail split := by
    have listed : Call.closeBlock tail ∈ [call] := split ▸ by simp
    exact absurd (List.mem_singleton.mp listed).symm (writes tail)

/-- Steady calls in a block. -/
theorem block (steady : Steady calls) (head tail : String) :
    Steady (.openBlock head :: calls ++ [.closeBlock tail]) where
  depth_eq w := by
    have closed : (w.performAll (.openBlock head :: calls ++ [.closeBlock tail])).depth =
        ((w.openBlock head).performAll calls).depth - 1 := by
      rw [performAll_append, performAll_cons]
      rfl
    rw [closed, steady.depth_eq]
    rfl
  depth_lt w before after last split := by
    have deeper : w.depth < (w.perform (.openBlock head)).depth := Nat.lt_succ_self _
    cases before with
    | nil => simp at split
    | cons call before =>
        obtain ⟨rfl, rest⟩ := List.cons.inj split
        rw [performAll_cons]
        rcases List.append_eq_append_iff.mp rest with ⟨more, rfl, final⟩ | ⟨more, rfl, final⟩
        -- the block that is closed is the one that was opened first
        · obtain rfl : more = [] := by
            cases more with
            | nil => rfl
            | cons _ more => simp at final
          rwa [List.append_nil, steady.depth_eq]
        · cases more with
          | nil =>
              rw [List.append_nil] at steady
              rwa [steady.depth_eq]
          | cons call more =>
              obtain ⟨rfl, -⟩ := List.cons.inj final
              exact Nat.lt_trans deeper (steady.depth_lt _ before more last rfl)

end Steady

/-- Steady calls bring the writer from one state to another. -/
structure Writes (before : Writer) (calls : List Call) (after : Writer) : Prop where
  steady : Steady calls
  performAll_eq : before.performAll calls = after

/-- Steady calls only add their lines. -/
theorem Steady.writes {calls : List Call} (steady : Steady calls) (w : Writer) :
    Writes w calls { w with text := w.text ++ Text.unlines (writtenLines w.depth calls) } := by
  refine ⟨steady, ?_⟩
  rw [← text_performAll, ← steady.depth_eq w]

/-- Steady calls that write a text on their own begin and end without indentation. -/
theorem Steady.writes_written {calls : List Call} (steady : Steady calls) :
    Writes {} calls ⟨0, written calls⟩ := by
  have own := steady.writes {}
  rwa [String.empty_append, ← written_eq] at own

end Writer

namespace Layout

open Writer

mutual

/-- The calls that write a piece of text. -/
def calls : Layout → List Call
  | .line text => [.line text]
  | .flushLine text => [.flushLine text]
  | .blank => [.newline]
  | .block head body tail => .openBlock head :: callsOf body ++ [.closeBlock tail]

/-- The calls that write pieces of text. -/
def callsOf : List Layout → List Call
  | [] => []
  | piece :: rest => piece.calls ++ callsOf rest

end

theorem callsOf_eq_flatMap (pieces : List Layout) : callsOf pieces = pieces.flatMap calls := by
  induction pieces with
  | nil => rfl
  | cons piece rest induction => rw [callsOf, induction, List.flatMap_cons]

theorem callsOf_append (first second : List Layout) :
    callsOf (first ++ second) = callsOf first ++ callsOf second := by
  simp only [callsOf_eq_flatMap, List.flatMap_append]

theorem callsOf_flatMap {Item : Type} (items : List Item) (pieces : Item → List Layout) :
    callsOf (items.flatMap pieces) = items.flatMap fun item => callsOf (pieces item) := by
  simp only [callsOf_eq_flatMap, List.flatMap_assoc]

theorem callsOf_map_line {Item : Type} (items : List Item) (text : Item → String) :
    callsOf (items.map fun item => .line (text item)) =
      items.map fun item => .line (text item) := by
  rw [callsOf_eq_flatMap, List.flatMap_map, List.map_eq_flatMap]
  simp only [calls]

theorem callsOf_paragraph {Item : Type} (items : List Item) (text : Item → String) :
    callsOf (paragraph (items.map fun item => .line (text item))) =
      (items.map fun item => .line (text item)) ++ if items.isEmpty then [] else [.newline] := by
  rw [paragraph, List.isEmpty_map]
  split
  · rename_i empty
    rw [List.isEmpty_iff.mp empty]
    rfl
  · rw [callsOf_append, callsOf_map_line]
    rfl

mutual

theorem writtenLines_calls_append (depth : Nat) (rest : List Call) : (piece : Layout) →
    writtenLines depth (piece.calls ++ rest) = piece.lines depth ++ writtenLines depth rest
  | .line _ | .flushLine _ | .blank => by
      rw [calls, lines]
      rfl
  | .block head body tail => by
      rw [calls, lines, List.cons_append, List.cons_append, writtenLines, List.append_assoc,
        writtenLines_callsOf_append _ _ body, List.append_assoc]
      rfl

theorem writtenLines_callsOf_append (depth : Nat) (rest : List Call) : (pieces : List Layout) →
    writtenLines depth (callsOf pieces ++ rest) = linesOf depth pieces ++ writtenLines depth rest
  | [] => by
      rw [callsOf, linesOf]
      rfl
  | piece :: pieces => by
      rw [callsOf, linesOf, List.append_assoc, writtenLines_calls_append depth _ piece,
        writtenLines_callsOf_append depth rest pieces, List.append_assoc]

end

/-- The calls for a layout write its lines. -/
theorem writtenLines_callsOf (depth : Nat) (pieces : List Layout) :
    writtenLines depth (callsOf pieces) = linesOf depth pieces := by
  simpa [writtenLines] using writtenLines_callsOf_append depth [] pieces

theorem writtenLines_calls (depth : Nat) (piece : Layout) :
    writtenLines depth piece.calls = piece.lines depth := by
  simpa [writtenLines] using writtenLines_calls_append depth [] piece

theorem written_callsOf (pieces : List Layout) : written (callsOf pieces) = render pieces := by
  rw [written_eq, writtenLines_callsOf, render]

mutual

theorem steady_calls : (piece : Layout) → Steady piece.calls
  | .line text => by
      rw [calls]
      exact .singleton (.line text) (fun _ => rfl) (by simp)
  | .flushLine text => by
      rw [calls]
      exact .singleton (.flushLine text) (fun _ => rfl) (by simp)
  | .blank => by
      rw [calls]
      exact .singleton .newline (fun _ => rfl) (by simp)
  | .block head body tail => by
      rw [calls]
      exact (steady_callsOf body).block head tail

theorem steady_callsOf : (pieces : List Layout) → Steady (callsOf pieces)
  | [] => by
      rw [callsOf]
      exact .nil
  | piece :: rest => by
      rw [callsOf]
      exact (steady_calls piece).append (steady_callsOf rest)

end

end Layout
end HeaderBinding
