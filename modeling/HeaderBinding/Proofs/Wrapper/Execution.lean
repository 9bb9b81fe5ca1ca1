import HeaderBinding.Proofs.Wrapper.Body
import HeaderBinding.Wrapper.Text

/-!
# Running wrapper functions

What the statements of a wrapper function do to the handle, to the owner flag and to the objects of
the wrapped class. Text never touches any of these; a call of a wrapped function needs an object
that is alive and leaves it alive.
-/

namespace HeaderBinding
namespace Wrapper

/-! ## States -/

/-- A wrapper and the objects that it has made, numbered in the order of their creation. -/
structure State where
  /-- The object that the handle stands for, unless it is null. -/
  handle? : Option Nat
  owned : Bool
  /-- How many objects have been made. -/
  created : Nat
  /-- The objects that have been deleted, the last one first. -/
  deleted : List Nat
  deriving DecidableEq, Repr

namespace State

/-- A wrapper that has just been made. -/
def initial : State :=
  ⟨none, false, 0, []⟩

/-- The object has been made and has not been deleted. -/
def IsLive (state : State) (object : Nat) : Prop :=
  object < state.created ∧ object ∉ state.deleted

instance (state : State) (object : Nat) : Decidable (state.IsLive object) :=
  inferInstanceAs (Decidable (_ ∧ _))

end State

/-- What can go wrong. -/
inductive Fault where
  /-- The null handle is deleted. -/
  | nullDeleted
  /-- A function is called through the null handle. -/
  | nullCalled
  /-- A function of an object is called that is not alive. -/
  | deadCalled
  /-- The function that gives the object up calls itself. -/
  | endless
  deriving DecidableEq, Repr

/-- What a call depends on besides the state. -/
structure Input where
  /-- The handle passed for a parameter is null. -/
  isNull : String → Bool
  /-- A condition that is only known as text holds. -/
  holds : String → Bool

/-- The input of a function without parameters. -/
def Input.none : Input :=
  ⟨fun _ => false, fun _ => false⟩

/-- Whether a function goes on after a statement. -/
inductive Flow where
  | onward
  | left
  deriving DecidableEq, Repr

/-! ## Statements -/

/-- Whether the condition holds. -/
@[simp]
def Condition.isMet (input : Input) (state : State) : Condition → Bool
  | .text code => input.holds code
  | .handleMissing => state.handle?.isNone
  | .handleOwned => state.handle?.isSome && state.owned
  | .argumentMissing param => input.isNull param

/-- Evaluate an expression. The object is given up by `giveUp`. -/
@[simp]
def Expr.run (giveUp : State → Except Fault State) (state : State) : Expr → Except Fault State
  | .text _ | .call (.ofClass _) .. => .ok state
  | .call (.ofHandle ..) .. =>
      match state.handle? with
      | none => .error .nullCalled
      | some object => if state.IsLive object then .ok state else .error .deadCalled
  | .create .. =>
      .ok { state with handle? := some state.created, created := state.created + 1 }
  | .delete _ =>
      match state.handle? with
      | none => .error .nullDeleted
      | some object => .ok { state with deleted := object :: state.deleted }
  | .destroy => giveUp state
  | .clearHandle => .ok { state with handle? := none }
  | .setOwned owned => .ok { state with owned }
  | .ignore inner | .addressOf inner | .handleOf inner => inner.run giveUp state

mutual

/-- Run a statement. -/
@[simp]
def Stmt.run (giveUp : State → Except Fault State) (input : Input) (state : State) :
    Stmt → Except Fault (State × Flow)
  | .comment _ | .todo _ | .declare .. | .report _ => .ok (state, .onward)
  | .expr value | .bind _ value => (value.run giveUp state).map (·, .onward)
  | .ret none => .ok (state, .left)
  | .ret (some value) => (value.run giveUp state).map (·, .left)
  | .guard condition body =>
      if condition.isMet input state then runAll giveUp input state body
      else .ok (state, .onward)

/-- Run statements one after the other, until the function is left. -/
@[simp]
def runAll (giveUp : State → Except Fault State) (input : Input) (state : State) :
    List Stmt → Except Fault (State × Flow)
  | [] => .ok (state, .onward)
  | stmt :: rest =>
      match stmt.run giveUp input state with
      | .ok (next, .onward) => runAll giveUp input next rest
      | ended => ended

end

section

variable {giveUp : State → Except Fault State} {input : Input} {state next : State}
  {first rest : List Stmt}

theorem runAll_append : runAll giveUp input state (first ++ rest) =
    match runAll giveUp input state first with
    | .ok (next, .onward) => runAll giveUp input next rest
    | ended => ended := by
  induction first generalizing state with
  | nil => simp
  | cons stmt later induction =>
      simp only [List.cons_append, runAll]
      rcases stmt.run giveUp input state with fault | ⟨next, flow⟩
      · rfl
      · cases flow with
        | onward => exact induction
        | left => rfl

theorem runAll_append_of_onward (done : runAll giveUp input state first = .ok (next, .onward)) :
    runAll giveUp input state (first ++ rest) = runAll giveUp input next rest := by
  rw [runAll_append, done]

theorem runAll_append_of_left (done : runAll giveUp input state first = .ok (next, .left)) :
    runAll giveUp input state (first ++ rest) = .ok (next, .left) := by
  rw [runAll_append, done]

theorem run_failWith (type : String) :
    (failWith type).run giveUp input state = .ok (state, .left) := by
  rw [failWith]
  cases defaultValue? type <;> rfl

theorem runAll_map_todo (remarks : List String) :
    runAll giveUp input state (remarks.map .todo) = .ok (state, .onward) := by
  induction remarks with
  | nil => rfl
  | cons remark later induction => exact induction

/-- A function that cannot be called changes nothing. -/
theorem Method.IsUnavailable.runAll_eq {method : Method} (unavailable : method.IsUnavailable) :
    runAll giveUp input state method.body = .ok (state, .left) := by
  obtain ⟨remarks, message, body_eq⟩ := unavailable
  rw [body_eq, runAll_append_of_onward (runAll_map_todo remarks)]
  simp [run_failWith]

/-! ## Parameters and results -/

/-- A parameter for which a handle is needed has been passed none. -/
def isRefused (scope : TypeScope) (input : Input) (param : Api.Param) : Bool :=
  treatment scope param.type = .guarded && input.isNull (Identifier.safe param.name)

theorem Prepares.runAll_eq {site : ParamSite} {name type : String} {treated : Treatment}
    {prelude : List Stmt} {blocked? : Option Stmt}
    (prepares : Prepares site name treated prelude blocked?) (exits : site.fail = failWith type) :
    runAll giveUp input state prelude =
      .ok (state, if treated = .guarded && input.isNull name then .left else .onward) := by
  cases prepares with
  | guarded message =>
      cases null : input.isNull name <;>
        simp [exits, run_failWith, null]
  | _ => rfl

/-- What is run for parameters only decides whether the function is left. -/
theorem runAll_preludes (scope : TypeScope) {site : ParamSite} {type : String}
    (exits : site.fail = failWith type) (params : List Api.Param) :
    runAll giveUp input state (preludes scope site params) =
      .ok (state, if params.any (isRefused scope input) then .left else .onward) := by
  induction params with
  | nil => rfl
  | cons param later induction =>
      have prepared : runAll giveUp input state (passParam scope site param).prelude =
          .ok (state, if isRefused scope input param then .left else .onward) :=
        (prepares_passParam scope site param).runAll_eq exits
      rw [preludes, List.flatMap_cons, ← preludes, List.any_cons]
      cases refused : isRefused scope input param with
      | true => exact runAll_append_of_left (by simpa [refused] using prepared)
      | false =>
          rw [runAll_append_of_onward (by simpa [refused] using prepared), induction,
            Bool.false_or]

/-- A call that goes well leaves the state as it is, whatever becomes of its result. -/
theorem Plans.runAll_forward {scope : TypeScope} {result : TypeRef} {plan : ResultPlan}
    (plans : Plans scope result plan) {call : Expr} (called : call.run giveUp state = .ok state) :
    ∃ flow, runAll giveUp input state (plan.forward call) = .ok (state, flow) := by
  cases plans with
  | nothing => exact ⟨.onward, by simp [ResultPlan.forward, called, Except.map]⟩
  | handle takeAddress =>
      cases takeAddress <;>
        exact ⟨.left, by simp [ResultPlan.forward, called, Except.map]⟩
  | primitive | enumRef | mapped =>
      exact ⟨.left, by simp [ResultPlan.forward, called, Except.map]⟩
  | droppedRecord | droppedSequence | droppedUnknown =>
      exact ⟨.left, by
        simp [ResultPlan.forward, called, Except.map, run_failWith]⟩

end

/-! ## Functions of a class -/

namespace Class

variable (wrapper : Class)

/-- Give the object up. -/
def giveUp (state : State) : Except Fault State :=
  (runAll (fun _ => .error .endless) .none state wrapper.destroy).map Prod.fst

/-- Call a function of the class. -/
def call (method : Method) (input : Input) (state : State) : Except Fault (State × Flow) :=
  runAll wrapper.giveUp input state method.body

/-- What happens when the wrapper goes away. -/
def tearDown (state : State) : Except Fault State :=
  (runAll wrapper.giveUp .none state destructorBody).map Prod.fst

/-- What can be done with a wrapper. -/
inductive Operation where
  /-- Call a function of the class, for instance one that stands for a constructor. -/
  | call (method : Method) (listed : method ∈ wrapper.methods) (input : Input)
  /-- Give the object up. -/
  | giveUp

variable {wrapper}

/-- Carry an operation out. -/
def Operation.run (state : State) : wrapper.Operation → Except Fault State
  | .call method _ input => (wrapper.call method input state).map Prod.fst
  | .giveUp => wrapper.giveUp state

/-- Carry operations out, one after the other. -/
def runOperations (state : State) : List wrapper.Operation → Except Fault State
  | [] => .ok state
  | operation :: rest => do
      let next ← operation.run state
      runOperations next rest

end Class

end Wrapper
end HeaderBinding
