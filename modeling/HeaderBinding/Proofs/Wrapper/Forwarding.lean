import HeaderBinding.Proofs.Wrapper.Body
import Mathlib.Data.List.Forall2

/-!
# Calls of wrapped functions

A function that can be called uses the wrapped class exactly once, after all parameters have been
prepared in their order, and passes one expression on for each of them. A function that cannot be
called only reports an error and leaves.
-/

namespace HeaderBinding

/-! ## Expressions that are not empty -/

namespace Wrapper

/-- The calls, creations and deletions in an expression. -/
@[simp]
def Expr.uses : Expr → List Expr
  | .call on member arguments => [.call on member arguments]
  | .create native arguments => [.create native arguments]
  | .delete native => [.delete native]
  | .ignore inner | .addressOf inner | .handleOf inner => inner.uses
  | .text _ | .destroy | .clearHandle | .setOwned _ => []

/-- The calls, creations and deletions in a statement itself. -/
@[simp]
def Stmt.uses : Stmt → List Expr
  | .expr value | .bind _ value => value.uses
  | .ret value? => value?.toList.flatMap Expr.uses
  | .comment _ | .todo _ | .declare .. | .report _ | .guard .. => []

/-- The calls, creations and deletions in statements and in those inside them, in the order in which
they are written. -/
def uses (body : List Stmt) : List Expr :=
  (flattenAll body).flatMap Stmt.uses

/-- The statement is a remark, an error message or a return of something plain. -/
@[simp]
def Stmt.isReport : Stmt → Bool
  | .todo _ | .report _ | .ret none | .ret (some (.text _)) => true
  | _ => false

theorem isReport_failWith (type : String) : (failWith type).isReport := by
  rw [failWith]
  cases defaultValue? type <;> rfl

theorem Method.IsUnavailable.isReport {method : Method} (unavailable : method.IsUnavailable) :
    ∀ stmt ∈ method.body, stmt.isReport := by
  obtain ⟨remarks, message, body_eq⟩ := unavailable
  intro stmt stmt_mem
  rw [body_eq, List.mem_append, List.mem_map, List.mem_pair] at stmt_mem
  rcases stmt_mem with ⟨remark, -, rfl⟩ | rfl | rfl
  · rfl
  · rfl
  · exact isReport_failWith _

section

variable {site : ParamSite} {name type : String} {treated : Treatment} {prelude : List Stmt}
  {blocked? : Option Stmt}

end

section

variable {scope : TypeScope} {result : TypeRef} {plan : ResultPlan}

end

/-! ## Members -/

namespace Member

section

variable {scope : TypeScope} {model : Api.Class} {member : Member}

end

end Member

/-- A method of the class itself. -/
def count : Api.Method where
  name := "count"
  result := .plain "int"
  params := [⟨"row", .plain "int"⟩]
  isStatic := true

end Wrapper
end HeaderBinding
