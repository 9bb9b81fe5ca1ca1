import HeaderBinding.Proofs.Clang.Steps

/-!
# Order of the nodes that are read

Declarations are numbered in the order of their nodes. A class template has two nodes, its own and
that of its record, and both come before the nodes of the next declaration.
-/

namespace HeaderBinding
namespace Clang

open Decl (NodeId Tree)

/-- The nodes of a declaration: its own, and at `place` the one with its members. -/
structure Origin.At (all : List Node) (origin : Origin) (own : Node) (place : Nat) : Prop where
  own_found : all[origin.place]? = some own
  body_found : all[place]? = some own.body
  le : origin.place ≤ place
  body_eq : origin.kind ≠ .classTemplate → own.body = own

/-- What was read lies in the document in its order: the nodes of a declaration come before those of
the next one, and a class template that is not open any more has ended. -/
structure Laid (all : List Node) (reader : Reader) : Prop where
  size : reader.state.tree.size = reader.done.length
  noUnit : ∀ {id : NodeId} {origin : Origin}, id ≠ Tree.root → reader.done[id]? = some origin →
    origin.kind ≠ .unit
  ordered : ∀ {id : NodeId} {origin : Origin}, reader.done[id]? = some origin →
    ∃ own place, origin.At all own place ∧ place < reader.here ∧
      ∀ (later : NodeId) (other : Origin), id < later → reader.done[later]? = some other →
        place < other.place
  closed : ∀ {id : NodeId} {origin : Origin} {own : Node}, reader.done[id]? = some origin →
    all[origin.place]? = some own → origin.kind = .classTemplate → id ∉ reader.opened →
      origin.place + own.nodes.length ≤ reader.here
  nodup_opened : reader.opened.Nodup
  opened_lt : ∀ id ∈ reader.opened, id < reader.done.length

section

variable {all : List Node} {done : List Origin} {added origin : Origin} {opened : List NodeId}
  {id parent : NodeId} {here there place : Nat} {state : State} {node : Decl.Node} {own : Node}
  {before after : Reader}

theorem getElem?_concat_eq_some_iff : (done ++ [added])[id]? = some origin ↔
    done[id]? = some origin ∨ id = done.length ∧ origin = added := by
  rcases Nat.lt_trichotomy id done.length with less | rfl | more
  · rw [List.getElem?_append_left less]
    simp [Nat.ne_of_lt less]
  · simp [eq_comm]
  · have behind : (done ++ [added]).length ≤ id := by
      rw [List.length_append]
      exact more
    rw [List.getElem?_eq_none behind, List.getElem?_eq_none (Nat.le_of_lt more)]
    simp [Nat.ne_of_gt more]

namespace Laid

theorem pass (laid : Laid all ⟨done, opened, here, state⟩) (onward : here ≤ there)
    (files : List String) : Laid all ⟨done, opened, there, state.follow files⟩ where
  size := laid.size
  noUnit := laid.noUnit
  ordered found := by
    obtain ⟨own, place, isAt, before, ordered⟩ := laid.ordered found
    exact ⟨own, place, isAt, Nat.lt_of_lt_of_le before onward, ordered⟩
  closed found own_found template apart :=
    Nat.le_trans (laid.closed found own_found template apart) onward
  nodup_opened := laid.nodup_opened
  opened_lt := laid.opened_lt

theorem add (laid : Laid all ⟨done, opened, here, state⟩)
    (isAt : Origin.At all ⟨here, node.kind, node.name⟩ own place) (noUnit : node.kind ≠ .unit) :
    Laid all ⟨done ++ [⟨here, node.kind, node.name⟩], openedBy node.kind done.length opened,
      place + 1, state.add parent node own.body.fields⟩ where
  size := by
    rw [State.size_add, laid.size, List.length_append]
    rfl
  noUnit apart found := by
    rcases getElem?_concat_eq_some_iff.mp found with old | ⟨-, rfl⟩
    · exact laid.noUnit apart old
    · exact noUnit
  ordered found := by
    rcases getElem?_concat_eq_some_iff.mp found with old | ⟨rfl, rfl⟩
    · obtain ⟨own, other, old_at, before, ordered⟩ := laid.ordered old
      refine ⟨own, other, old_at, Nat.lt_succ_of_lt (Nat.lt_of_lt_of_le before isAt.le),
        fun later next id_lt listed => ?_⟩
      rcases getElem?_concat_eq_some_iff.mp listed with early | ⟨-, rfl⟩
      · exact ordered later next id_lt early
      · exact before
    · -- There is nothing after the new declaration.
      refine ⟨own, place, isAt, Nat.lt_succ_self _, fun later next id_lt listed => ?_⟩
      rcases getElem?_concat_eq_some_iff.mp listed with early | ⟨rfl, -⟩
      · exact absurd (List.getElem?_eq_some_iff.mp early).1 (Nat.lt_asymm id_lt)
      · exact absurd id_lt (Nat.lt_irrefl _)
  closed found own_found template apart := by
    rcases getElem?_concat_eq_some_iff.mp found with old | ⟨rfl, rfl⟩
    · have closed := laid.closed old own_found template fun again =>
        apart (mem_openedBy.mpr (.inr again))
      exact Nat.le_trans closed (Nat.le_succ_of_le isAt.le)
    · exact absurd (mem_openedBy.mpr (.inl ⟨template, rfl⟩)) apart
  nodup_opened := by
    have fresh : done.length ∉ opened := fun again => Nat.lt_irrefl _ (laid.opened_lt _ again)
    dsimp only [openedBy]
    split
    · exact List.nodup_cons.mpr ⟨fresh, laid.nodup_opened⟩
    · exact laid.nodup_opened
  opened_lt id open_id := by
    dsimp only
    rw [List.length_append]
    rcases mem_openedBy.mp open_id with ⟨-, rfl⟩ | old
    · exact Nat.lt_succ_self _
    · exact Nat.lt_succ_of_lt (laid.opened_lt id old)

theorem close (laid : Laid all ⟨done, id :: opened, here, state⟩) (found : done[id]? = some origin)
    (own_found : all[origin.place]? = some own) (ends : here = origin.place + own.nodes.length) :
    Laid all ⟨done, opened, here, state.mark own.fields id⟩ where
  size := (State.size_mark id).trans laid.size
  noUnit := laid.noUnit
  ordered := laid.ordered
  closed {other _ _} listed node_found template apart := by
    by_cases same : other = id
    · subst same
      obtain rfl := Option.some.inj (found.symm.trans listed)
      obtain rfl := Option.some.inj (own_found.symm.trans node_found)
      exact Nat.le_of_eq ends.symm
    · refine laid.closed listed node_found template fun again => ?_
      exact apart ((List.mem_cons.mp again).resolve_left same)
  nodup_opened := (List.nodup_cons.mp laid.nodup_opened).2
  opened_lt other open_other := laid.opened_lt other (List.mem_cons_of_mem _ open_other)

end Laid

theorem Step.laid (step : Step all before after) (laid : Laid all before) : Laid all after := by
  cases step with
  | pass onward _ files => exact laid.pass onward files
  | add node own_found body_found here_le kind noUnit _ _ =>
      exact laid.add ⟨own_found, body_found, here_le, Node.body_of_kind kind⟩ noUnit
  | close found _ own_found ends => exact laid.close found own_found ends

end
end Clang
end HeaderBinding
