import HeaderBinding.Proofs.Clang.Order

/-!
# Scopes of the declarations that are read

A record whose node names a scope belongs to that scope if it was known by the mark when the record
was read, and otherwise to the declaration that it is written in. All other declarations belong to
the one that they are written in, whatever their nodes name.
-/

namespace HeaderBinding
namespace Clang

open Decl (Kind NodeId Tree)

/-- The mark of the node at a place. -/
def markAt? (all : List Node) (place : Nat) : Option String :=
  all[place]?.bind fun node => node.fields.id?

/-- No two nodes have the same mark. -/
def DistinctMarks (all : List Node) : Prop :=
  ∀ {first second : Nat} {key : String}, markAt? all first = some key →
    markAt? all second = some key → first = second

/-- A mark stands for a scope if it is that of the node with the members of the scope or, unless the
scope is open, that of its own node. -/
def StandsFor (all : List Node) (done : List Origin) (opened : List NodeId) (key : String)
    (id : NodeId) : Prop :=
  ∃ origin own, done[id]? = some origin ∧ isScope origin.kind ∧ all[origin.place]? = some own ∧
    (own.body.fields.id? = some key ∨ own.fields.id? = some key ∧ id ∉ opened)

/-- A mark stands for a scope when the declaration with the given number is read. -/
def KnownAt (all : List Node) (done : List Origin) (id : NodeId) (key : String) (scope : NodeId) :
    Prop :=
  scope < id ∧ ∃ origin outer own, done[id]? = some origin ∧ done[scope]? = some outer ∧
    isScope outer.kind ∧ all[outer.place]? = some own ∧
    (own.body.fields.id? = some key ∨
      own.fields.id? = some key ∧ outer.place + own.nodes.length ≤ origin.place)

/-- A declaration with the given node is written in `outer` and belongs to the scope that its node
names, if it is a record and that is known, and to `outer` otherwise. -/
structure Link (all : List Node) (done : List Origin) (tree : Tree) (id : NodeId) (kind : Kind)
    (own : Node) (outer : NodeId) : Prop where
  written : id ∈ tree.children outer
  before : outer < id
  moved : ∀ {key scope}, kind.isRecord → own.body.fields.scopeMark? = some key →
    KnownAt all done id key scope → tree.scope? id = some scope
  left : (∀ key scope, kind.isRecord → own.body.fields.scopeMark? = some key →
    ¬KnownAt all done id key scope) → tree.scope? id = some outer

/-- Marks stand for the scopes that were read, and records belong to those that they name. -/
structure Linked (all : List Node) (reader : Reader) : Prop where
  wellFormed : reader.state.tree.WellFormed
  known : ∀ {key : String} {id : NodeId}, reader.state.scopes[key]? = some id ↔
    StandsFor all reader.done reader.opened key id
  links : ∀ {id : NodeId} {origin : Origin} {own : Node}, id ≠ Tree.root →
    reader.done[id]? = some origin → all[origin.place]? = some own →
      ∃ outer, Link all reader.done reader.state.tree id origin.kind own outer

section

variable {all : List Node} {done : List Origin} {opened : List NodeId} {here there place : Nat}
  {state : State} {fields : Fields} {parent : NodeId} {node : Decl.Node} {origin added : Origin}
  {own : Node} {id scope outer : NodeId} {key : String} {before after : Reader}

/-! ## Marks -/

theorem knownAt_concat_iff (old : id < done.length) :
    KnownAt all (done ++ [added]) id key scope ↔ KnownAt all done id key scope := by
  unfold KnownAt
  constructor
  all_goals
    rintro ⟨before, origin, outer, own, found, outer_found, rest⟩
    refine ⟨before, origin, outer, own, ?_, ?_, rest⟩
    · rw [List.getElem?_append_left old] at *
      assumption
    · rw [List.getElem?_append_left (Nat.lt_trans before old)] at *
      assumption

/-- A new scope is known by the mark of the node with its members. -/
theorem standsFor_concat_iff (isAt : added.At all own place) :
    StandsFor all (done ++ [added]) (openedBy added.kind done.length opened) key id ↔
      StandsFor all done opened key id ∨
        id = done.length ∧ isScope added.kind ∧ own.body.fields.id? = some key := by
  constructor
  · rintro ⟨origin, node, found, scope, own_found, marks⟩
    rcases getElem?_concat_eq_some_iff.mp found with old | ⟨rfl, rfl⟩
    · refine .inl ⟨origin, node, old, scope, own_found, marks.imp_right fun ⟨own, apart⟩ => ?_⟩
      exact ⟨own, fun again => apart (mem_openedBy.mpr (.inr again))⟩
    · obtain rfl := Option.some.inj (isAt.own_found.symm.trans own_found)
      refine .inr ⟨rfl, scope, ?_⟩
      rcases marks with body | ⟨own, apart⟩
      · exact body
      · have noTemplate : origin.kind ≠ .classTemplate := fun template =>
          apart (mem_openedBy.mpr (.inl ⟨template, rfl⟩))
        rw [isAt.body_eq noTemplate]
        exact own
  · rintro (⟨origin, node, old, scope, own_found, marks⟩ | ⟨rfl, scope, body⟩)
    · have known : id < done.length := (List.getElem?_eq_some_iff.mp old).1
      refine ⟨origin, node, getElem?_concat_eq_some_iff.mpr (.inl old), scope, own_found,
        marks.imp_right fun ⟨own, apart⟩ => ⟨own, fun again => apart ?_⟩⟩
      exact (mem_openedBy.mp again).resolve_left fun new => Nat.ne_of_lt known new.2
    · exact ⟨added, own, getElem?_concat_eq_some_iff.mpr (.inr ⟨rfl, rfl⟩), scope, isAt.own_found,
        .inl body⟩

/-- A mark that stands for a scope was read with one of its nodes, which lie between those of the
scopes before and after it. -/
theorem Laid.exists_place {reader : Reader} (laid : Laid all reader)
    (stands : StandsFor all reader.done opened key id) :
    ∃ origin place, reader.done[id]? = some origin ∧ origin.place ≤ place ∧ place < reader.here ∧
      markAt? all place = some key ∧
      ∀ (later : NodeId) (other : Origin), id < later → reader.done[later]? = some other →
        place < other.place := by
  obtain ⟨origin, own, found, -, own_found, marks⟩ := stands
  obtain ⟨node, place, isAt, before, ordered⟩ := laid.ordered found
  obtain rfl := Option.some.inj (isAt.own_found.symm.trans own_found)
  rcases marks with body | ⟨mark, -⟩
  · refine ⟨origin, place, found, isAt.le, before, ?_, ordered⟩
    rw [markAt?, isAt.body_found, Option.bind_some, body]
  · refine ⟨origin, origin.place, found, Nat.le_refl _, Nat.lt_of_le_of_lt isAt.le before, ?_,
      fun later other id_lt listed => Nat.lt_of_le_of_lt isAt.le (ordered later other id_lt listed)⟩
    rw [markAt?, own_found, Option.bind_some, mark]

/-- No scope is known by the mark of a node that is still to come. -/
theorem Laid.not_standsFor {reader : Reader} (laid : Laid all reader) (distinct : DistinctMarks all)
    (mark : markAt? all place = some key) (here_le : reader.here ≤ place) :
    ¬StandsFor all reader.done opened key id := by
  intro stands
  obtain ⟨_, other, -, -, before, same, -⟩ := laid.exists_place stands
  obtain rfl := distinct mark same
  exact absurd before (Nat.not_lt_of_le here_le)

/-- The mark of a declaration's own node stands for no other scope. -/
theorem Laid.eq_of_standsFor {reader : Reader} {other : NodeId} (laid : Laid all reader)
    (distinct : DistinctMarks all) (found : reader.done[id]? = some origin)
    (mark : markAt? all origin.place = some key)
    (stands : StandsFor all reader.done opened key other) : id = other := by
  obtain ⟨own, place, isAt, -, ordered⟩ := laid.ordered found
  obtain ⟨next, next_place, next_found, next_le, -, same, next_ordered⟩ := laid.exists_place stands
  obtain rfl := distinct mark same
  rcases Nat.lt_trichotomy id other with less | rfl | more
  · have behind : place < next.place := ordered other next less next_found
    exact absurd (Nat.lt_of_le_of_lt isAt.le behind) (Nat.not_lt_of_le next_le)
  · rfl
  · exact absurd (next_ordered id origin more found) (Nat.lt_irrefl _)

/-- When a declaration is taken in, a mark stands for a scope in either sense. -/
theorem Laid.knownAt_iff {reader : Reader} (laid : Laid all reader)
    (within : Within all reader.done reader.opened (reader.here + 1))
    (here : added.place = reader.here) :
    KnownAt all (reader.done ++ [added]) reader.done.length key scope ↔
      StandsFor all reader.done reader.opened key scope := by
  constructor
  · rintro ⟨before, origin, outer, own, found, outer_found, isScope, own_found, marks⟩
    rw [List.getElem?_append_left before] at outer_found
    obtain rfl : added = origin := Option.some.inj (List.getElem?_concat_length.symm.trans found)
    refine ⟨outer, own, outer_found, isScope, own_found,
      marks.imp_right fun ⟨mark, ends⟩ => ⟨mark, fun open_scope => ?_⟩⟩
    obtain ⟨same, node, same_found, node_found, le⟩ := within scope open_scope
    obtain rfl := Option.some.inj (outer_found.symm.trans same_found)
    obtain rfl := Option.some.inj (own_found.symm.trans node_found)
    omega
  · rintro ⟨outer, own, outer_found, isScope, own_found, marks⟩
    have before : scope < reader.done.length := (List.getElem?_eq_some_iff.mp outer_found).1
    refine ⟨before, added, outer, own, List.getElem?_concat_length, ?_, isScope, own_found, ?_⟩
    · rw [List.getElem?_append_left before]
      exact outer_found
    · rcases marks with body | ⟨mark, apart⟩
      · exact .inl body
      · by_cases template : outer.kind = .classTemplate
        · exact .inr ⟨mark, here ▸ laid.closed outer_found own_found template apart⟩
        · obtain ⟨node, _, isAt, -⟩ := laid.ordered outer_found
          obtain rfl := Option.some.inj (own_found.symm.trans isAt.own_found)
          rw [isAt.body_eq template]
          exact .inl mark

theorem Link.concat {kind : Kind} {tree grown : Tree} (link : Link all done tree id kind own outer)
    (old : id < done.length) (children : id ∈ tree.children outer → id ∈ grown.children outer)
    (scope : grown.scope? id = tree.scope? id) :
    Link all (done ++ [added]) grown id kind own outer where
  written := children link.written
  before := link.before
  moved record named known :=
    scope.trans (link.moved record named ((knownAt_concat_iff old).mp known))
  left unknown := scope.trans (link.left fun key scope record named known =>
    unknown key scope record named ((knownAt_concat_iff old).mpr known))

/-! ## Steps -/

theorem Linked.add (linked : Linked all ⟨done, opened, here, state⟩)
    (laid : Laid all ⟨done, opened, here, state⟩) (distinct : DistinctMarks all)
    (isAt : Origin.At all ⟨here, node.kind, node.name⟩ own place)
    (inside : parent < state.tree.size) (within : Within all done opened (here + 1)) :
    Linked all ⟨done ++ [⟨here, node.kind, node.name⟩], openedBy node.kind done.length opened,
      place + 1, state.add parent node own.body.fields⟩ := by
  have size : state.tree.size = done.length := laid.size
  have written {child outer : NodeId} : child ∈ state.tree.children outer →
      child ∈ (state.add parent node own.body.fields).tree.children outer := by
    rw [State.children_add, Tree.mem_children_push (Nat.le_of_lt inside)]
    exact .inl
  -- The own mark of the declaration stood for nothing before.
  have fresh {key : String} {scope : NodeId} (mark : own.body.fields.id? = some key) :
      ¬StandsFor all done opened key scope :=
    laid.not_standsFor distinct (by rw [markAt?, isAt.body_found, Option.bind_some, mark]) isAt.le
  refine ⟨State.wellFormed_add linked.wellFormed (Nat.le_of_lt inside), ?_, ?_⟩
  · intro key id
    rw [standsFor_concat_iff isAt, State.scopes_add]
    split
    · rename_i own_mark
      constructor
      · intro newest
        exact .inr ⟨(Option.some.inj newest).symm.trans size, own_mark⟩
      · rintro (stands | ⟨rfl, -⟩)
        · exact absurd stands (fresh own_mark.2)
        · rw [size]
    · rename_i other_mark
      rw [linked.known, or_iff_left fun new => other_mark new.2]
  · intro id origin node_own apart found own_found
    rcases getElem?_concat_eq_some_iff.mp found with old | ⟨rfl, rfl⟩
    · obtain ⟨outer, link⟩ := linked.links apart old own_found
      have known : id < done.length := (List.getElem?_eq_some_iff.mp old).1
      exact ⟨outer, link.concat known written (State.scope?_add_of_lt (size ▸ known))⟩
    · obtain rfl := Option.some.inj (isAt.own_found.symm.trans own_found)
      refine ⟨parent, ?_, size ▸ inside, ?_, ?_⟩
      · rw [State.children_add, Tree.mem_children_push (Nat.le_of_lt inside)]
        exact .inr ⟨rfl, size.symm⟩
      · intro key scope record named known
        have stands : StandsFor all done opened key scope := (laid.knownAt_iff within rfl).mp known
        have other_mark : own.body.fields.id? ≠ some key := fun mark => fresh mark stands
        have found : (state.add parent node own.body.fields).scopes[key]? = some scope := by
          rw [State.scopes_add, if_neg fun own_mark => other_mark own_mark.2]
          exact linked.known.mpr stands
        rcases state.add_cases parent node own.body.fields with
          ⟨again, target, -, same, target_found, tree_eq⟩ | ⟨-, missing⟩
        · obtain rfl := Option.some.inj (named.symm.trans same)
          obtain rfl := Option.some.inj (found.symm.trans target_found)
          have before : scope < state.tree.size := size ▸ known.1
          rw [tree_eq, Tree.scope?_setScope, Tree.size_push]
          exact if_pos
            ⟨size.symm, Nat.lt_succ_self _, Nat.ne_of_gt before, Nat.lt_succ_of_lt before⟩
        · cases found.symm.trans (missing key record named)
      · intro unknown
        have pushed : (state.tree.push parent node).scope? done.length = some parent := by
          rw [Tree.scope?_push, if_pos size.symm]
        rcases state.add_cases parent node own.body.fields with
          ⟨key, scope, record, named, found, tree_eq⟩ | ⟨tree_eq, -⟩
        · rw [State.scopes_add] at found
          split at found
          · obtain rfl := Option.some.inj found
            rw [tree_eq, Tree.scope?_setScope, if_neg fun set => set.2.2.1 rfl, pushed]
          · have stands : StandsFor all done opened key scope := linked.known.mp found
            exact absurd ((laid.knownAt_iff within rfl).mpr stands)
              (unknown key scope record named)
        · rw [tree_eq, pushed]

theorem Linked.close {opening : Origin} (linked : Linked all ⟨done, id :: opened, here, state⟩)
    (laid : Laid all ⟨done, id :: opened, here, state⟩) (distinct : DistinctMarks all)
    (found : done[id]? = some opening) (own_found : all[opening.place]? = some own)
    (template : opening.kind = .classTemplate) :
    Linked all ⟨done, opened, here, state.mark own.fields id⟩ := by
  have tree_eq : (state.mark own.fields id).tree = state.tree := tree_mark ..
  have apart : id ∉ opened := (List.nodup_cons.mp laid.nodup_opened).1
  refine ⟨tree_eq ▸ linked.wellFormed, ?_, ?_⟩
  · intro key other
    rw [State.scopes_mark]
    split
    · rename_i own_mark
      constructor
      · rintro ⟨⟩
        exact ⟨opening, own, found, by rw [template]; rfl, own_found, .inr ⟨own_mark, apart⟩⟩
      · intro stands
        have mark : markAt? all opening.place = some key := by
          rw [markAt?, own_found, Option.bind_some, own_mark]
        rw [laid.eq_of_standsFor distinct found mark stands]
    · rename_i other_mark
      have old : state.scopes[key]? = some other ↔ StandsFor all done (id :: opened) key other :=
        linked.known
      rw [old]
      unfold StandsFor
      refine exists_congr fun origin => exists_congr fun node => and_congr_right fun listed =>
        and_congr_right fun _ => and_congr_right fun node_found => or_congr_right <|
          and_congr_right fun mark => ?_
      have differs : other ≠ id := by
        rintro rfl
        obtain rfl := Option.some.inj (found.symm.trans listed)
        obtain rfl := Option.some.inj (own_found.symm.trans node_found)
        exact other_mark mark
      rw [List.mem_cons, or_iff_right differs]
  · intro other origin node
    rw [tree_eq]
    exact linked.links

theorem Step.linked (step : Step all before after) (laid : Laid all before)
    (distinct : DistinctMarks all) (linked : Linked all before) : Linked all after := by
  cases step with
  | pass => exact ⟨linked.wellFormed, linked.known, linked.links⟩
  | add node own_found body_found here_le kind noUnit inside within =>
      exact linked.add laid distinct ⟨own_found, body_found, here_le, Node.body_of_kind kind⟩ inside
        (within.mono (Nat.succ_le_succ here_le))
  | close found template own_found _ =>
      exact linked.close laid distinct found own_found template

/-- A whole run keeps what each step keeps. -/
theorem Steps.linked (steps : Steps all before after) (distinct : DistinctMarks all)
    (laid : Laid all before) (linked : Linked all before) :
    Laid all after ∧ Linked all after := by
  induction steps with
  | refl => exact ⟨laid, linked⟩
  | tail _ step induction =>
      obtain ⟨laid, linked⟩ := induction
      exact ⟨step.laid laid, step.linked laid distinct linked⟩

end

/-! ## The whole document -/

theorem distinctMarks_of_nodup {nodes : List Node}
    (distinct : (nodes.filterMap fun node => node.fields.id?).Nodup) : DistinctMarks nodes := by
  intro first second key first_mark second_mark
  obtain ⟨one, one_found, one_mark⟩ := Option.bind_eq_some_iff.mp first_mark
  obtain ⟨two, two_found, two_mark⟩ := Option.bind_eq_some_iff.mp second_mark
  obtain ⟨first_lt, rfl⟩ := List.getElem?_eq_some_iff.mp one_found
  obtain ⟨second_lt, rfl⟩ := List.getElem?_eq_some_iff.mp two_found
  have apart := List.pairwise_iff_getElem.mp (List.pairwise_filterMap.mp distinct)
  rcases Nat.lt_trichotomy first second with less | same | more
  · exact absurd rfl (apart first second first_lt second_lt less key one_mark key two_mark)
  · exact same
  · exact absurd rfl (apart second first second_lt first_lt more key two_mark key one_mark)

theorem fields_ofValue (value : Json.Value) :
    (Node.ofValue value).fields = Fields.ofValue value := by
  rw [ofValue_eq, Node.fields]

theorem distinctMarks_writtenNodes {document : Json.Value}
    (distinct : ((writtenNodes document).filterMap (·.textField? "id")).Nodup) :
    DistinctMarks ((writtenNodes document).map Node.ofValue) := by
  apply distinctMarks_of_nodup
  rw [List.filterMap_map]
  have mark : (fun node => node.fields.id?) ∘ Node.ofValue = (·.textField? "id") := by
    funext value
    rw [Function.comp_apply, fields_ofValue]
    rfl
  rwa [mark]

/-- Before anything is read there is the header alone, and its mark stands for it. -/
theorem linked_start {all : List Node} {header : Node} {start : State}
    (found : all[0]? = some header) (kind : header.fields.kind = nodeKind .unit)
    (tree : start.tree = .empty)
    (scopes : start.scopes = (State.mark { tree := .empty } header.fields Tree.root).scopes) :
    let reader : Reader := ⟨[⟨0, .unit, ""⟩], [], 1, start⟩
    Laid all reader ∧ Linked all reader := by
  have body : header.body = header := Node.body_of_kind kind nofun
  have isAt : Origin.At all ⟨0, .unit, ""⟩ header 0 :=
    ⟨found, body.symm ▸ found, Nat.le_refl 0, fun _ => body⟩
  have alone {id : NodeId} {origin : Origin} (listed : [Origin.mk 0 .unit ""][id]? = some origin) :
      id = Tree.root ∧ origin = ⟨0, .unit, ""⟩ := by
    obtain ⟨known, rfl⟩ := List.getElem?_eq_some_iff.mp listed
    obtain rfl : id = 0 := Nat.lt_one_iff.mp known
    exact ⟨rfl, rfl⟩
  refine ⟨⟨by rw [tree]; rfl, fun apart listed => absurd (alone listed).1 apart, fun listed => ?_,
    fun listed _ template => ?_, List.nodup_nil, List.forall_mem_nil _⟩,
    tree ▸ .empty, ?_, fun apart listed => absurd (alone listed).1 apart⟩
  · obtain ⟨rfl, rfl⟩ := alone listed
    exact ⟨header, 0, isAt, Nat.zero_lt_one, fun later other after next =>
      absurd (alone next).1 (Nat.ne_of_gt after)⟩
  · obtain ⟨-, rfl⟩ := alone listed
    cases template
  · intro key id
    rw [scopes, State.scopes_mark]
    constructor
    · intro known
      split at known
      · rename_i mark
        obtain rfl := Option.some.inj known
        exact ⟨_, header, rfl, rfl, found, .inl (by rw [body, mark])⟩
      · cases known.symm.trans Std.ExtTreeMap.getElem?_empty
    · rintro ⟨origin, own, listed, -, own_found, marks⟩
      obtain ⟨rfl, rfl⟩ := alone listed
      obtain rfl := Option.some.inj (found.symm.trans own_found)
      rw [body] at marks
      exact if_pos (marks.elim id And.left)

/-- What was read of a document. -/
def finalReader (document : Json.Value) (after : State) : Reader :=
  ⟨⟨0, .unit, ""⟩ :: originsOf document, [], (writtenNodes document).length, after⟩

theorem finalReader_done {document : Json.Value} {after : State} (number : Nat) :
    (finalReader document after).done[number + 1]? = (originsOf document)[number]? :=
  List.getElem?_cons_succ

/-- When a document has been read, its marks stand for its scopes and its records belong to those
that they name. -/
theorem linked_treeOf {document : Json.Value} (mainFile : String)
    (isUnit : document.textField? "kind" = some "TranslationUnitDecl")
    (distinct : ((writtenNodes document).filterMap (·.textField? "id")).Nodup) :
    let all := (writtenNodes document).map Node.ofValue
    ∃ after : State, treeOf document mainFile = .ok after.tree ∧
      Laid all (finalReader document after) ∧ Linked all (finalReader document after) := by
  intro all
  obtain ⟨start, after, read, tree, scopes, steps⟩ := steps_treeOf mainFile isUnit
  have found : all[0]? = some (Node.ofValue document) := by
    rw [List.getElem?_map, writtenNodes_eq]
    rfl
  have kind : (Node.ofValue document).fields.kind = nodeKind .unit := by
    rw [fields_ofValue]
    simp [Fields.ofValue, isUnit, nodeKind]
  rw [← fields_ofValue] at scopes
  obtain ⟨laid, linked⟩ := linked_start found kind tree scopes
  exact ⟨after, read, steps.linked (distinctMarks_writtenNodes distinct) laid linked⟩

end Clang
end HeaderBinding
