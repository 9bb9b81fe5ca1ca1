import HeaderBinding.Proofs.Text.Apart
import HeaderBinding.Proofs.Wrapper.Execution
import Mathlib.Data.List.Infix

/-!
# Effects read from code

What an expression does to the handle, the owner flag and the objects of the wrapped class can be
read from how it is written. Main statements: `Expr.ofCode?_code`, the effect is the one that is
written, and `Expr.run_eq_run`, the expression runs as its effect says.
-/

namespace HeaderBinding
namespace Wrapper

open Text

/-- What an expression does to the handle, the owner flag and the objects. -/
inductive Effect where
  /-- Make an object, as written behind `new`, and take its handle. -/
  | creates (object : String)
  /-- Delete the object of this class that the handle stands for. -/
  | deletes (type : String)
  | givesUp
  | forgetsHandle
  | setsOwned (owned : Bool)
  /-- Call a function of the object that the handle stands for. -/
  | callsObject
  deriving DecidableEq, Repr

namespace Effect

/-- The effect, if no more is written. -/
def atEnd (effect : Effect) (rest : List Char) : Option Effect :=
  if rest = [] then some effect else none

/-- What is read behind the mark of a creation. -/
def ofCreated (object : List Char) : Option Effect :=
  some (.creates (String.ofList object))

/-- What is read behind the mark of a deletion. -/
def ofDeleted (rest : List Char) : Option Effect :=
  (dropBack? " *>(this->native)".toList rest).map fun type => .deletes (String.ofList type)

/-- What is read behind the mark of a call. -/
def ofCalled (rest : List Char) : Option Effect :=
  if " *>(this->native)->".toList <:+: rest then some .callsObject else none

/-- What an expression begins with that has an effect, and what is read from the rest. -/
def readers : List (String × (List Char → Option Effect)) :=
  [("this->native = new ", ofCreated), ("delete reinterpret_cast<", ofDeleted),
    ("reinterpret_cast<", ofCalled), ("this->destroy()", atEnd .givesUp),
    ("this->native = nullptr", atEnd .forgetsHandle),
    ("this->owned = true", atEnd (.setsOwned true)),
    ("this->owned = false", atEnd (.setsOwned false))]

/-- The effect that an expression has as written. -/
def ofCode? (code : String) : Option Effect :=
  readMarked? readers code.toList

theorem ofCode?_append {mark : String} {read : List Char → Option Effect}
    (listed : (mark, read) ∈ readers) (rest : String) :
    ofCode? (mark ++ rest) = read rest.toList := by
  have apart : (readers.map Prod.fst).Pairwise fun first second =>
      AreApart first.toList second.toList ∧ AreApart second.toList first.toList := by
    decide
  rw [ofCode?, String.toList_append]
  exact readMarked?_append (List.pairwise_map.mp apart) listed rest.toList

/-- Bring the effect about. The object is given up by `giveUp`. -/
def run (giveUp : State → Except Fault State) (state : State) : Effect → Except Fault State
  | creates _ =>
      .ok { state with handle? := some state.created, created := state.created + 1 }
  | deletes _ =>
      match state.handle? with
      | none => .error .nullDeleted
      | some object => .ok { state with deleted := object :: state.deleted }
  | givesUp => giveUp state
  | forgetsHandle => .ok { state with handle? := none }
  | setsOwned owned => .ok { state with owned }
  | callsObject =>
      match state.handle? with
      | none => .error .nullCalled
      | some object => if state.IsLive object then .ok state else .error .deadCalled

end Effect

namespace Expr

/-- The effect of an expression that touches the handle, the owner flag or an object by itself. -/
def effect? : Expr → Option Effect
  | create type arguments => some (.creates (type ++ argumentList arguments))
  | delete type => some (.deletes type)
  | destroy => some .givesUp
  | clearHandle => some .forgetsHandle
  | setOwned owned => some (.setsOwned owned)
  | call (.ofHandle ..) .. => some .callsObject
  | _ => none

variable {expression other : Expr} {effect : Effect}

/-- The effect is the one that is written. -/
theorem ofCode?_code (acts : expression.effect? = some effect) :
    Effect.ofCode? expression.code = some effect := by
  cases expression with
  | create type arguments =>
      obtain rfl := Option.some.inj acts
      have written : (create type arguments).code =
          "this->native = new " ++ type ++ argumentList arguments :=
        rfl
      have listed : ("this->native = new ", Effect.ofCreated) ∈ Effect.readers := by
        simp [Effect.readers]
      rw [written, String.append_assoc, Effect.ofCode?_append listed, Effect.ofCreated,
        String.ofList_toList]
  | delete type =>
      obtain rfl := Option.some.inj acts
      have written : (delete type).code =
          "delete reinterpret_cast<" ++ type ++ " *>(this->native)" :=
        rfl
      have back : dropBack? " *>(this->native)".toList (type ++ " *>(this->native)").toList =
          some type.toList :=
        dropBack?_eq_some.mpr String.toList_append
      have listed : ("delete reinterpret_cast<", Effect.ofDeleted) ∈ Effect.readers := by
        simp [Effect.readers]
      rw [written, String.append_assoc, Effect.ofCode?_append listed, Effect.ofDeleted, back,
        Option.map_some, String.ofList_toList]
  | destroy =>
      obtain rfl := Option.some.inj acts
      decide
  | clearHandle =>
      obtain rfl := Option.some.inj acts
      decide
  | setOwned owned =>
      obtain rfl := Option.some.inj acts
      cases owned <;> decide
  | call receiver member arguments =>
      cases receiver with
      | ofClass type => cases acts
      | ofHandle type isConst =>
          obtain rfl := Option.some.inj acts
          let front := if isConst then "const " else ""
          let back := member ++ argumentList arguments
          have written : (call (.ofHandle type isConst) member arguments).code =
              "reinterpret_cast<" ++ front ++ type ++ " *>(this->native)->" ++ member ++
                argumentList arguments :=
            rfl
          have reached : " *>(this->native)->".toList <:+:
              (front ++ (type ++ (" *>(this->native)->" ++ back))).toList :=
            ⟨(front ++ type).toList, back.toList, by simp⟩
          have read : Effect.ofCalled (front ++ (type ++ (" *>(this->native)->" ++ back))).toList =
              some .callsObject :=
            if_pos reached
          have listed : ("reinterpret_cast<", Effect.ofCalled) ∈ Effect.readers := by
            simp [Effect.readers]
          simp only [written, String.append_assoc]
          rw [Effect.ofCode?_append listed]
          exact read
  | text | ignore | addressOf | handleOf => cases acts

/-- The expression runs as its effect says. -/
theorem run_eq_run (acts : expression.effect? = some effect) (giveUp : State → Except Fault State)
    (state : State) : expression.run giveUp state = effect.run giveUp state := by
  cases expression with
  | call receiver =>
      cases receiver with
      | ofClass => cases acts
      | ofHandle =>
          obtain rfl := Option.some.inj acts
          rfl
  | text | ignore | addressOf | handleOf => cases acts
  | _ =>
      obtain rfl := Option.some.inj acts
      rfl

/-- Expressions with an effect do the same if they are written alike. -/
theorem run_eq_of_code_eq (acts : expression.effect?.isSome) (other_acts : other.effect?.isSome)
    (same : expression.code = other.code) (giveUp : State → Except Fault State) (state : State) :
    expression.run giveUp state = other.run giveUp state := by
  obtain ⟨effect, found⟩ := Option.isSome_iff_exists.mp acts
  obtain ⟨other_effect, other_found⟩ := Option.isSome_iff_exists.mp other_acts
  have read := ofCode?_code found
  rw [same, ofCode?_code other_found, Option.some.injEq] at read
  rw [run_eq_run found, run_eq_run other_found, read]

end Expr

end Wrapper
end HeaderBinding
