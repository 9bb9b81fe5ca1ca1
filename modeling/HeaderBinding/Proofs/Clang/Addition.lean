import HeaderBinding.Proofs.Clang.Constants
import HeaderBinding.Proofs.Decl.Scope

/-!
# Taking a declaration in

All kinds of declarations are taken in alike. A declaration that others may belong to is known by
the mark of its node from then on, also to itself, and a record moves to the scope that it names if
that is known.
-/

namespace HeaderBinding
namespace Clang

open Decl (Kind NodeId Tree)

/-- Other declarations may belong to the declaration. -/
def isScope : Kind → Bool
  | .unit | .namespaceScope | .struct | .classType | .classTemplate => true
  | _ => false

theorem isScope_of_isRecord {kind : Kind} (record : kind.isRecord) : isScope kind := by
  revert record
  cases kind <;> decide

/-- Take a declaration in, let its mark stand for it if it is a scope, and let it belong to the
scope that it names if it is a record. -/
def State.add (state : State) (parent : NodeId) (node : Decl.Node) (fields : Fields) : State :=
  let id := state.tree.size
  let pushed := state.push parent node
  let marked := if isScope node.kind then pushed.mark fields id else pushed
  if node.kind.isRecord then marked.relink fields id else marked

section

variable {state : State} {site : Site} {fields : Fields} {node : Decl.Node} {parent id : NodeId}
  {key : String}

@[simp]
theorem State.size_mark (id : NodeId) : (state.mark fields id).tree.size = state.tree.size := by
  rw [tree_mark]

@[simp]
theorem State.size_relink (id : NodeId) : (state.relink fields id).tree.size = state.tree.size := by
  unfold relink
  split
  · exact Tree.size_setScope
  · rfl

theorem State.size_push : (state.push parent node).tree.size = state.tree.size + 1 :=
  Tree.size_push

theorem State.size_add : (state.add parent node fields).tree.size = state.tree.size + 1 := by
  unfold add
  dsimp only
  split <;> split <;> simp [size_push]

theorem State.add_of_plain (plain : isScope node.kind = false) :
    state.add parent node fields = state.push parent node := by
  have noRecord : ¬node.kind.isRecord := fun record => by simp [isScope_of_isRecord record] at plain
  simp [add, plain, noRecord]

theorem State.add_of_namespace (kind : node.kind = .namespaceScope) :
    state.add parent node fields = (state.push parent node).mark fields state.tree.size := by
  simp [add, kind, isScope, Kind.isRecord]

theorem openRecord_eq_add {kind? : Option Kind}
    (record : (recordNode site kind? fields).kind.isRecord) :
    openRecord state site kind? fields =
      state.add site.parent (recordNode site kind? fields) fields := by
  simp [State.add, record, isScope_of_isRecord record, openRecord]

theorem State.scopes_mark (id : NodeId) : (state.mark fields id).scopes[key]? =
    if fields.id? = some key then some id else state.scopes[key]? := by
  unfold mark
  cases fields.id? with
  | none => rfl
  | some own =>
      by_cases same : own = key <;> simp [Std.ExtTreeMap.getElem?_insert, same]

theorem State.scopes_relink (id : NodeId) : (state.relink fields id).scopes = state.scopes := by
  unfold relink
  split <;> rfl

theorem State.scopes_add : (state.add parent node fields).scopes[key]? =
    if isScope node.kind ∧ fields.id? = some key then some state.tree.size
    else state.scopes[key]? := by
  have marked : (if isScope node.kind then (state.push parent node).mark fields state.tree.size
      else state.push parent node).scopes[key]? =
        if isScope node.kind ∧ fields.id? = some key then some state.tree.size
        else state.scopes[key]? := by
    by_cases scope : isScope node.kind = true
    · simp [scope, scopes_mark, push]
    · simp [scope, push]
  rw [← marked, add]
  split
  · rw [scopes_relink]
  · rfl

/-- A declaration that is taken in is moved to a scope or stays where it is written. -/
theorem State.add_cases (state : State) (parent : NodeId) (node : Decl.Node) (fields : Fields) :
    let after := state.add parent node fields
    (∃ key scope, node.kind.isRecord ∧ fields.scopeMark? = some key ∧
      after.scopes[key]? = some scope ∧
      after.tree = (state.tree.push parent node).setScope state.tree.size scope) ∨
    after.tree = state.tree.push parent node ∧
      ∀ key, node.kind.isRecord → fields.scopeMark? = some key → after.scopes[key]? = none := by
  intro after
  by_cases record : node.kind.isRecord = true
  · let marked := (state.push parent node).mark fields state.tree.size
    have tree_eq : marked.tree = state.tree.push parent node := tree_mark ..
    have after_eq : after = marked.relink fields state.tree.size := by
      simp [after, add, record, isScope_of_isRecord record, marked]
    rw [after_eq, scopes_relink, relink]
    cases found : fields.scopeMark?.bind (marked.scopes[·]?) with
    | none =>
        refine .inr ⟨tree_eq, fun key _ named => ?_⟩
        simpa [named] using found
    | some scope =>
        obtain ⟨key, named, known⟩ := Option.bind_eq_some_iff.mp found
        exact .inl ⟨key, scope, record, named, known, by rw [tree_eq]⟩
  · refine .inr ⟨?_, fun _ isRecord => absurd isRecord record⟩
    have tree_marked : (if isScope node.kind then
        (state.push parent node).mark fields state.tree.size
        else state.push parent node).tree = state.tree.push parent node := by
      split
      · exact tree_mark ..
      · rfl
    simp only [after, add, if_neg record]
    exact tree_marked

theorem State.wellFormed_add (wf : state.tree.WellFormed) (inside : parent ≤ state.tree.size) :
    (state.add parent node fields).tree.WellFormed := by
  rcases state.add_cases parent node fields with ⟨_, scope, -, -, -, tree_eq⟩ | ⟨tree_eq, -⟩
  · rw [tree_eq]
    exact (wf.push inside node).setScope _ _
  · rw [tree_eq]
    exact wf.push inside node

theorem State.children_add : (state.add parent node fields).tree.children id =
    (state.tree.push parent node).children id := by
  rcases state.add_cases parent node fields with ⟨_, scope, -, -, -, tree_eq⟩ | ⟨tree_eq, -⟩
  · rw [tree_eq, Tree.children_setScope]
  · rw [tree_eq]

theorem State.scope?_add_of_lt (known : id < state.tree.size) :
    (state.add parent node fields).tree.scope? id = state.tree.scope? id := by
  have pushed : (state.tree.push parent node).scope? id = state.tree.scope? id := by
    rw [Tree.scope?_push, if_neg (Nat.ne_of_lt known)]
  rcases state.add_cases parent node fields with ⟨_, scope, -, -, -, tree_eq⟩ | ⟨tree_eq, -⟩
  · rw [tree_eq, Tree.scope?_setScope, if_neg fun set => Nat.ne_of_lt known set.1, pushed]
  · rw [tree_eq, pushed]

end
end Clang
end HeaderBinding
