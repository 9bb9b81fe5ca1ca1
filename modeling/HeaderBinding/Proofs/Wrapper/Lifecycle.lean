import HeaderBinding.Proofs.Wrapper.Execution

/-!
# Objects that wrappers own

A wrapper owns the object that its handle stands for, and no other object that it made is alive.
This holds after any calls of its functions, and no object is left when the wrapper goes away. A
function that stands for a constructor gives the object up before it makes a new one, but only once
nothing can keep it from making one.
-/

namespace HeaderBinding
namespace Wrapper

/-! ## States in order -/

/-- The wrapper owns exactly what its handle stands for, and this is the only live object; only
objects that the wrapper has made have been deleted, and none of them twice. -/
structure State.Tidy (state : State) : Prop where
  owned_eq : state.owned = state.handle?.isSome
  live_iff : ∀ object, state.IsLive object ↔ state.handle? = some object
  deleted_nodup : state.deleted.Nodup
  deleted_made : ∀ object ∈ state.deleted, object < state.created

namespace State

/-- The state after the object has been given up. -/
def released (state : State) : State :=
  { state with handle? := none, owned := false, deleted := state.handle?.toList ++ state.deleted }

/-- The state after an object has been made. -/
def renewed (state : State) : State :=
  { state with handle? := some state.created, owned := true, created := state.created + 1 }

theorem tidy_initial : initial.Tidy where
  owned_eq := rfl
  live_iff := by simp [IsLive, initial]
  deleted_nodup := List.nodup_nil
  deleted_made := by simp [initial]

variable {state : State}

theorem Tidy.isLive_handle (tidy : state.Tidy) {object : Nat}
    (held : state.handle? = some object) : state.IsLive object :=
  (tidy.live_iff object).mpr held

theorem Tidy.not_isLive (tidy : state.Tidy) (null : state.handle? = none) (object : Nat) :
    ¬state.IsLive object := by
  simp [tidy.live_iff, null]

theorem Tidy.released (tidy : state.Tidy) : state.released.Tidy := by
  cases held : state.handle? with
  | none =>
      have same : state.released = { state with handle? := none, owned := false } := by
        simp [State.released, held]
      have unowned : state.owned = false := by
        simp [tidy.owned_eq, held]
      rw [same, ← unowned, ← held]
      exact tidy
  | some object =>
      obtain ⟨made, kept⟩ := tidy.isLive_handle held
      have deletes : state.released.deleted = object :: state.deleted := by
        simp [State.released, held]
      refine ⟨rfl, ?_, ?_, ?_⟩
      · intro other
        refine iff_of_false ?_ nofun
        rintro ⟨other_made, fresh⟩
        rw [deletes, List.mem_cons, not_or] at fresh
        have live : state.IsLive other := ⟨other_made, fresh.2⟩
        rw [tidy.live_iff, held, Option.some.injEq] at live
        exact fresh.1 live.symm
      · rw [deletes]
        exact List.nodup_cons.mpr ⟨kept, tidy.deleted_nodup⟩
      · rw [deletes]
        exact List.forall_mem_cons.mpr ⟨made, tidy.deleted_made⟩

theorem Tidy.renewed (tidy : state.Tidy) (null : state.handle? = none) : state.renewed.Tidy where
  owned_eq := rfl
  live_iff := by
    intro object
    have none_live := tidy.not_isLive null object
    have unmade : state.created ∉ state.deleted :=
      fun member => Nat.lt_irrefl _ (tidy.deleted_made _ member)
    simp only [IsLive, State.renewed, Option.some.injEq] at none_live ⊢
    constructor
    · -- Any other live object would have been alive before.
      rintro ⟨made, kept⟩
      by_contra other
      exact none_live ⟨by omega, kept⟩
    · rintro rfl
      exact ⟨by omega, unmade⟩
  deleted_nodup := tidy.deleted_nodup
  deleted_made := fun object member => Nat.lt_succ_of_lt (tidy.deleted_made object member)

end State

/-- What holds between the calls of the functions of a class: the state is tidy, and no object is
ever made by a class that cannot be created. -/
structure InOrder (model : Api.Class) (state : State) : Prop where
  tidy : state.Tidy
  null : model.isForwardable = false → state.handle? = none

/-! ## Giving up an object -/

section

variable (scope : TypeScope) (family base : String) {model : Api.Class} {state : State}

theorem giveUp_ofClass (order : InOrder model state) :
    (ofClass scope family base model).giveUp state = .ok state.released := by
  cases forwardable : model.isForwardable with
  | false =>
      simp [Class.giveUp, ofClass, destroyBody, forwardable, order.null forwardable, Except.map,
        State.released]
  | true =>
      cases held : state.handle? with
      | none =>
          simp [Class.giveUp, ofClass, destroyBody, forwardable, held, Except.map, State.released]
      | some object =>
          have owned : state.owned := by
            simp [order.tidy.owned_eq, held]
          simp [Class.giveUp, ofClass, destroyBody, forwardable, held, owned, Except.map,
            State.released]

theorem InOrder.released (order : InOrder model state) : InOrder model state.released :=
  ⟨order.tidy.released, fun _ => rfl⟩

/-- A wrapper that goes away leaves no object. -/
theorem tearDown_ofClass (order : InOrder model state) :
    ∃ last, (ofClass scope family base model).tearDown state = .ok last ∧ last.Tidy ∧
      ∀ object, ¬last.IsLive object := by
  cases held : state.handle? with
  | none =>
      refine ⟨state, ?_, order.tidy, order.tidy.not_isLive held⟩
      simp [Class.tearDown, destructorBody, held, Except.map]
  | some object =>
      have owned : state.owned := by
        simp [order.tidy.owned_eq, held]
      refine ⟨state.released, ?_, order.tidy.released, order.tidy.released.not_isLive rfl⟩
      simp [Class.tearDown, destructorBody, held, owned, giveUp_ofClass scope family base order,
        Except.map]

end

/-! ## Calls -/

/-- A call is over before anything is done: the class cannot be created, a parameter blocks the
call, or a handle that is needed is null. -/
def ExitsEarly (scope : TypeScope) (model : Api.Class) (input : Input) (params : List Api.Param) :
    Prop :=
  model.isForwardable = false ∨ (∃ param ∈ params, treatment scope param.type = .blocked) ∨
    ∃ param ∈ params, isRefused scope input param

instance (scope : TypeScope) (model : Api.Class) (input : Input) (params : List Api.Param) :
    Decidable (ExitsEarly scope model input params) :=
  inferInstanceAs (Decidable (_ ∨ _))

section

variable {scope : TypeScope} {model : Api.Class} {input : Input} {params : List Api.Param}

theorem exitsEarly_iff : ExitsEarly scope model input params ↔
    ¬CanCall scope model params ∨ params.any (isRefused scope input) := by
  rw [ExitsEarly, not_canCall_iff, List.any_eq_true, or_assoc]

end

namespace Member

/-- The member needs an object. -/
def needsObject : Member → Bool
  | creator _ => false
  | method function => !function.isStatic

variable {scope : TypeScope} {model : Api.Class} {member : Member}
  {giveUp : State → Except Fault State} {input : Input} {state : State}

theorem runAll_opening : runAll giveUp input state (member.opening scope model) =
    .ok (state, if member.needsObject && state.handle?.isNone then .left else .onward) := by
  cases member with
  | creator => rfl
  | method function =>
      cases static : function.isStatic with
      | true => simp [opening, needsObject, static]
      | false =>
          cases null : state.handle? <;>
            simp [opening, needsObject, static, fail_site, objectGuard, null, run_failWith]

/-- A function that can be called is left if there is no object for it or if a handle is missing,
and otherwise makes its call. -/
theorem runAll_of_canCall (can : CanCall scope model member.params) :
    runAll giveUp input state (member.wrapped scope model).body =
      if member.needsObject && state.handle?.isNone || member.params.any (isRefused scope input)
      then .ok (state, .left)
      else runAll giveUp input state (member.closing scope model) := by
  have prepared : runAll giveUp input state
        (preludes scope (member.site scope model) member.params) =
      .ok (state, if member.params.any (isRefused scope input) then .left else .onward) :=
    runAll_preludes scope fail_site member.params
  rw [body_wrapped can, List.append_assoc, runAll_append, runAll_opening]
  cases member.needsObject && state.handle?.isNone with
  | true => simp
  | false =>
      simp only [Bool.false_eq_true, if_false, Bool.false_or]
      rw [runAll_append, prepared]
      cases member.params.any (isRefused scope input) <;> rfl

/-- A call that is over early changes nothing. -/
theorem runAll_of_exitsEarly (early : ExitsEarly scope model input member.params) :
    runAll giveUp input state (member.wrapped scope model).body = .ok (state, .left) := by
  by_cases can : CanCall scope model member.params
  · have refused : member.params.any (isRefused scope input) := by
      simpa [can] using exitsEarly_iff.mp early
    rw [runAll_of_canCall can, refused, Bool.or_true, if_pos rfl]
  · exact (isUnavailable_wrapped can).runAll_eq

/-- A call that is not over early comes to the wrapped function, unless that has no object. -/
theorem runAll_of_not_exitsEarly (ready : ¬ExitsEarly scope model input member.params) :
    runAll giveUp input state (member.wrapped scope model).body =
      if member.needsObject && state.handle?.isNone then .ok (state, .left)
      else runAll giveUp input state (member.closing scope model) := by
  obtain ⟨can, accepted⟩ : CanCall scope model member.params ∧
      ¬member.params.any (isRefused scope input) := by
    simpa only [exitsEarly_iff, not_or, not_not] using ready
  rw [runAll_of_canCall can, eq_false_of_ne_true accepted, Bool.or_false]

/-- A constructor makes an object once the one before it is given up. -/
theorem runAll_closing_creator (function : Api.Creator) :
    runAll giveUp input state ((creator function).closing scope model) =
      (giveUp state).map fun released => (released.renewed, .onward) := by
  simp only [closing, runAll, Stmt.run, Expr.run]
  cases giveUp state <;> rfl

/-- A method leaves the object alone if there is one. -/
theorem runAll_closing_method {function : Api.Method} (tidy : state.Tidy)
    (present : ¬((method function).needsObject && state.handle?.isNone)) :
    ∃ flow, runAll giveUp input state ((method function).closing scope model) =
      .ok (state, flow) := by
  refine (plans_planResult scope function.result).runAll_forward ?_
  cases static : function.isStatic with
  | true => simp [receiver, static]
  | false =>
      obtain ⟨object, held⟩ : ∃ object, state.handle? = some object := by
        simpa [needsObject, static, Option.ne_none_iff_exists'] using present
      simp [receiver, static, held, tidy.isLive_handle held]

end Member

section

variable (scope : TypeScope) (family base : String) {model : Api.Class} {state : State}

/-- Every call keeps wrapper and objects in order. -/
theorem inOrder_call (member : Member) (input : Input) (order : InOrder model state) :
    ∃ next flow, (ofClass scope family base model).call (member.wrapped scope model) input state =
      .ok (next, flow) ∧ InOrder model next := by
  rw [Class.call]
  by_cases early : ExitsEarly scope model input member.params
  · exact ⟨state, .left, member.runAll_of_exitsEarly early, order⟩
  · rw [member.runAll_of_not_exitsEarly early]
    split
    · exact ⟨state, .left, rfl, order⟩
    · rename_i present
      -- Nothing has been changed so far, so a method changes nothing at all, and a constructor gives
      -- up an object only where it makes another one.
      cases member with
      | creator function =>
          have forwardable : model.isForwardable := by
            simpa using fun fixed => early (.inl fixed)
          refine ⟨state.released.renewed, .onward, ?_,
            order.tidy.released.renewed rfl, by simp [forwardable]⟩
          rw [Member.runAll_closing_creator, giveUp_ofClass scope family base order]
          rfl
      | method function =>
          obtain ⟨flow, done⟩ := Member.runAll_closing_method order.tidy present
          exact ⟨state, flow, done, order⟩

theorem inOrder_run (order : InOrder model state)
    (operation : (ofClass scope family base model).Operation) :
    ∃ next, operation.run state = .ok next ∧ InOrder model next := by
  cases operation with
  | giveUp => exact ⟨state.released, giveUp_ofClass scope family base order, order.released⟩
  | call method listed input =>
      rw [methods_ofClass] at listed
      obtain ⟨member, -, rfl⟩ := List.mem_map.mp listed
      obtain ⟨next, flow, called, next_order⟩ := inOrder_call scope family base member input order
      refine ⟨next, ?_, next_order⟩
      rw [Class.Operation.run, called]
      rfl

theorem inOrder_runOperations (order : InOrder model state)
    (operations : List (ofClass scope family base model).Operation) :
    ∃ next, Class.runOperations state operations = .ok next ∧ InOrder model next := by
  induction operations generalizing state with
  | nil => exact ⟨state, rfl, order⟩
  | cons operation rest induction =>
      obtain ⟨middle, first, middle_order⟩ := inOrder_run scope family base order operation
      obtain ⟨next, later, next_order⟩ := induction middle_order
      refine ⟨next, ?_, next_order⟩
      rw [Class.runOperations, first]
      exact later

/-- After any operations on a wrapper of a class nothing has gone wrong, the wrapper owns what its
handle stands for, and no other object is alive; when it goes away none is left. A constructor that
exits early changes nothing, and any other call of one gives the object up and makes a new one. -/
theorem tidy_runOperations (model : Api.Class) :
    (∀ operations : List (ofClass scope family base model).Operation,
      ∃ next, Class.runOperations .initial operations = .ok next ∧ next.Tidy ∧
        ∃ last, (ofClass scope family base model).tearDown next = .ok last ∧ last.Tidy ∧
          ∀ object, ¬last.IsLive object) ∧
    ∀ (creator : Api.Creator) (input : Input) (state : State),
      (ofClass scope family base model).call (ofCreator scope model creator) input state =
        if ExitsEarly scope model input creator.params then .ok (state, .left)
        else ((ofClass scope family base model).giveUp state).map fun released =>
          (released.renewed, .onward) := by
  constructor
  · intro operations
    have order : InOrder model .initial := ⟨State.tidy_initial, fun _ => rfl⟩
    obtain ⟨next, done, next_order⟩ := inOrder_runOperations scope family base order operations
    exact ⟨next, done, next_order.tidy, tearDown_ofClass scope family base next_order⟩
  · intro creator input state
    split
    · rename_i early
      exact (Member.creator creator).runAll_of_exitsEarly early
    · rename_i ready
      exact ((Member.creator creator).runAll_of_not_exitsEarly ready).trans
        (Member.runAll_closing_creator creator)

/-- A second object takes the place of the first one, which is deleted. -/
example :
    ((ofClass emptyScope "Godot" "RefCounted" counterClass).call
      (ofCreator emptyScope counterClass ⟨[], .plain "Counter"⟩) .none ⟨some 0, true, 1, []⟩) =
        .ok (⟨some 1, true, 2, [0]⟩, .onward) := by
  decide +kernel

end

end Wrapper
end HeaderBinding
