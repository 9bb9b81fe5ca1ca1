import HeaderBinding.Proofs.Clang.Addition
import HeaderBinding.Proofs.Clang.Reading
import Mathlib.Logic.Relation

/-!
# Steps of reading

Whatever kind of node is read, the reader does one of three things: it passes over nodes, it takes a
declaration in, or it comes to the end of a class template. A declaration that others may belong to
is known by the mark of its node from then on, and a record moves to the scope that it names. The
mark of a class template's own node stands for it only after its end.
-/

namespace HeaderBinding
namespace Clang

open Decl (Access Kind NodeId Tree)

/-- The node with the members of a declaration: its own or, for a class template, that of the record
in it. -/
def Node.body (node : Node) : Node :=
  if node.fields.kind = "ClassTemplateDecl" then
    (node.inner.find? fun child => child.fields.kind = "CXXRecordDecl").getD node
  else node

/-- How far a document has been read. -/
structure Reader where
  /-- The declarations taken in, the header being the first. -/
  done : List Origin
  /-- Numbers of the class templates whose ends are still to come. -/
  opened : List NodeId
  /-- How many nodes have been read. -/
  here : Nat
  state : State

/-- None of the class templates that are still open ends before `high`. -/
def Within (all : List Node) (done : List Origin) (opened : List NodeId) (high : Nat) : Prop :=
  ∀ id ∈ opened, ∃ origin own, done[id]? = some origin ∧ all[origin.place]? = some own ∧
    high ≤ origin.place + own.nodes.length

/-- The open class templates when a declaration with the given number has been taken in. -/
def openedBy (kind : Kind) (id : NodeId) (opened : List NodeId) : List NodeId :=
  if kind = .classTemplate then id :: opened else opened

/-- One step of reading. -/
inductive Step (all : List Node) : Reader → Reader → Prop where
  | pass {done : List Origin} {opened : List NodeId} {here there : Nat} {state : State}
      (onward : here ≤ there) (within : Within all done opened there) (files : List String) :
      Step all ⟨done, opened, here, state⟩ ⟨done, opened, there, state.follow files⟩
  | add {done : List Origin} {opened : List NodeId} {here place : Nat} {state : State}
      {parent : NodeId} (node : Decl.Node) {own : Node} (own_found : all[here]? = some own)
      (body_found : all[place]? = some own.body) (here_le : here ≤ place)
      (kind : own.fields.kind = nodeKind node.kind) (noUnit : node.kind ≠ .unit)
      (inside : parent < state.tree.size) (within : Within all done opened (place + 1)) :
      Step all ⟨done, opened, here, state⟩
        ⟨done ++ [⟨here, node.kind, node.name⟩], openedBy node.kind done.length opened, place + 1,
          state.add parent node own.body.fields⟩
  | close {done : List Origin} {id : NodeId} {opened : List NodeId} {here : Nat} {state : State}
      {origin : Origin} {own : Node} (found : done[id]? = some origin)
      (template : origin.kind = .classTemplate) (own_found : all[origin.place]? = some own)
      (ends : here = origin.place + own.nodes.length) :
      Step all ⟨done, id :: opened, here, state⟩
        ⟨done, opened, here, state.mark own.fields id⟩

/-- Any number of steps. -/
def Steps (all : List Node) : Reader → Reader → Prop :=
  Relation.ReflTransGen (Step all)

section

variable {all inner rest nodes : List Node} {done : List Origin} {opened : List NodeId}
  {here there start low high parent : Nat} {state : State} {fields : Fields} {site : Site}
  {node : Decl.Node} {before after : Reader}

theorem mem_openedBy {kind : Kind} {id other : NodeId} :
    other ∈ openedBy kind id opened ↔ kind = .classTemplate ∧ other = id ∨ other ∈ opened := by
  unfold openedBy
  split <;> simp_all

theorem openedBy_of_ne {kind : Kind} (noTemplate : kind ≠ .classTemplate) (id : NodeId) :
    openedBy kind id opened = opened :=
  if_neg noTemplate

namespace Within

theorem mono (within : Within all done opened high) (low_le : low ≤ high) :
    Within all done opened low := by
  intro id open_id
  obtain ⟨origin, own, found, own_found, le⟩ := within id open_id
  exact ⟨origin, own, found, own_found, Nat.le_trans low_le le⟩

theorem append (within : Within all done opened high) (more : List Origin) :
    Within all (done ++ more) opened high := by
  intro id open_id
  obtain ⟨origin, own, found, rest⟩ := within id open_id
  have known := (List.getElem?_eq_some_iff.mp found).1
  exact ⟨origin, own, (List.getElem?_append_left known).trans found, rest⟩

theorem cons {origin : Origin} {own : Node} (within : Within all done opened high)
    (own_found : all[origin.place]? = some own) (le : high ≤ origin.place + own.nodes.length) :
    Within all (done ++ [origin]) (done.length :: opened) high :=
  List.forall_mem_cons.mpr
    ⟨⟨origin, own, List.getElem?_concat_length, own_found, le⟩, within.append _⟩

end Within

/-! ## States -/

theorem Node.body_of_kind {node : Node} {kind : Kind} (written : node.fields.kind = nodeKind kind)
    (noTemplate : kind ≠ .classTemplate) : node.body = node := by
  apply if_neg
  rw [written]
  revert noTemplate
  cases kind <;> simp [nodeKind]

theorem State.mark_skip (id : NodeId) :
    (state.mark fields id).skip nodes = (state.skip nodes).mark fields id := by
  unfold mark
  split <;> rfl

theorem recordKind_ne_classTemplate (fields : Fields) : recordKind fields ≠ .classTemplate := by
  unfold recordKind
  split <;> nofun

/-! ## One declaration for each number -/

theorem Step.size (step : Step all before after)
    (size : before.state.tree.size = before.done.length) :
    after.state.tree.size = after.done.length := by
  cases step with
  | pass => exact size
  | add => exact State.size_add.trans (by rw [List.length_append, ← size]; rfl)
  | close => exact (State.size_mark _).trans size

theorem Steps.size (steps : Steps all before after)
    (size : before.state.tree.size = before.done.length) :
    after.state.tree.size = after.done.length := by
  induction steps with
  | refl => exact size
  | tail _ step size => exact step.size size

/-- More steps, with the declarations that are inside what was read first. -/
theorem Steps.andThen {more later : List Origin} {middle final : State}
    (first : Steps all ⟨done, opened, here, state⟩ ⟨done ++ more, opened, there, middle⟩)
    (second : middle.tree.size = (done ++ more).length → state.tree.size ≤ middle.tree.size →
      Steps all ⟨done ++ more, opened, there, middle⟩
        ⟨done ++ more ++ later, opened, high, final⟩)
    (size : state.tree.size = done.length) :
    Steps all ⟨done, opened, here, state⟩ ⟨done ++ (more ++ later), opened, high, final⟩ := by
  have middle_size : middle.tree.size = (done ++ more).length := first.size size
  rw [← List.append_assoc]
  refine Relation.ReflTransGen.trans first (second middle_size ?_)
  rw [size, middle_size, List.length_append]
  exact Nat.le_add_right _ _

theorem Steps.skip (here : Nat) (here_le : here ≤ there) (within : Within all done opened there)
    (state : State) (nodes : List Node) :
    Steps all ⟨done, opened, here, state⟩ ⟨done, opened, there, state.skip nodes⟩ :=
  .single (.pass here_le within _)

/-- A declaration whose members stand in its own node. -/
theorem Step.own (done : List Origin) (node : Decl.Node)
    (own_found : all[here]? = some ⟨fields, inner⟩)
    (kind : fields.kind = nodeKind node.kind) (noUnit : node.kind ≠ .unit)
    (noTemplate : node.kind ≠ .classTemplate) (inside : parent < state.tree.size)
    (within : Within all done opened (here + 1)) :
    Step all ⟨done, opened, here, state⟩ ⟨done ++ [⟨here, node.kind, node.name⟩], opened,
      here + 1, state.add parent node fields⟩ := by
  have body : Node.body ⟨fields, inner⟩ = ⟨fields, inner⟩ := Node.body_of_kind kind noTemplate
  have added : Step all ⟨done, opened, here, state⟩ _ :=
    .add node own_found (body.symm ▸ own_found) (Nat.le_refl here) kind noUnit inside within
  rwa [openedBy_of_ne noTemplate, body] at added

/-- A declaration to which no others may belong. -/
theorem Step.plain (done : List Origin) (node : Decl.Node)
    (own_found : all[here]? = some ⟨fields, inner⟩)
    (kind : fields.kind = nodeKind node.kind) (plain : isScope node.kind = false)
    (inside : parent < state.tree.size) (within : Within all done opened (here + 1)) :
    Step all ⟨done, opened, here, state⟩ ⟨done ++ [⟨here, node.kind, node.name⟩], opened,
      here + 1, state.push parent node⟩ := by
  have noUnit : node.kind ≠ .unit := fun unit => by simp [unit, isScope] at plain
  have noTemplate : node.kind ≠ .classTemplate := fun template => by
    simp [template, isScope] at plain
  rw [← State.add_of_plain plain]
  exact .own done node own_found kind noUnit noTemplate inside within

/-- The nodes under it are passed over. -/
theorem Steps.leaf (done : List Origin) (node : Decl.Node)
    (own_found : all[here]? = some ⟨fields, inner⟩)
    (kind : fields.kind = nodeKind node.kind) (plain : isScope node.kind = false)
    (inside : parent < state.tree.size)
    (within : Within all done opened (here + 1 + (preorderAll inner).length)) :
    Steps all ⟨done, opened, here, state⟩ ⟨done ++ [⟨here, node.kind, node.name⟩], opened,
      here + 1 + (preorderAll inner).length, (state.push parent node).skip inner⟩ :=
  have behind : here + 1 ≤ here + 1 + (preorderAll inner).length := Nat.le_add_right _ _
  .tail (.single (.plain done node own_found kind plain inside (within.mono behind)))
    (.pass behind (within.append _) _)

theorem steps_readConstants {enum : NodeId} (next : Option Int) (covers : Covers all here nodes)
    (within : Within all done opened (here + (preorderAll nodes).length))
    (size : state.tree.size = done.length) (inside : enum < state.tree.size) :
    Steps all ⟨done, opened, here, state⟩ ⟨done ++ constantsIn here nodes, opened,
      here + (preorderAll nodes).length, readConstants enum next state nodes⟩ := by
  induction nodes generalizing next state here done with
  | nil =>
      rw [constantsIn, List.append_nil]
      exact .refl
  | cons node rest induction =>
      obtain ⟨fields, inner⟩ := node
      obtain ⟨found, coversInner, coversRest⟩ := covers.cons
      rw [add_length_preorderAll_cons] at within ⊢
      have behind : here + 1 ≤ here + 1 + (preorderAll inner).length := Nat.le_add_right _ _
      have near : Within all done opened (here + 1 + (preorderAll inner).length) :=
        within.mono (Nat.le_add_right _ _)
      have located : Step all ⟨done, opened, here, state⟩
          ⟨done, opened, here, state.follow (fields.files ++ fields.rangeFiles)⟩ :=
        .pass (Nat.le_refl _) (near.mono (by omega)) _
      refine .head located ?_
      rw [readConstants, constantsIn]
      by_cases constant : fields.kind = "EnumConstantDecl"
      · simp only [if_pos constant]
        let node : Decl.Node :=
          { kind := .enumConstant, name := fields.name
            value? := if inner.isEmpty then next else constantUnder? inner }
        have own : Steps all ⟨done, opened, here, state.follow (fields.files ++ fields.rangeFiles)⟩
            ⟨done ++ [⟨here, .enumConstant, fields.name⟩], _, _, _⟩ :=
          .leaf done node found constant rfl inside near
        refine own.andThen ?_ size
        exact fun size grown => induction _ coversRest (within.append _) size
          (Nat.lt_of_lt_of_le inside grown)
      · simp only [if_neg constant]
        have passed := Steps.skip here (by omega) near
          (state.follow (fields.files ++ fields.rangeFiles)) inner
        exact passed.trans (induction next coversRest within size inside)

theorem steps_readEnum (covers : Covers all (here + 1) inner)
    (found : all[here]? = some ⟨fields, inner⟩) (enum : fields.kind = "EnumDecl")
    (within : Within all done opened (here + 1 + (preorderAll inner).length))
    (size : state.tree.size = done.length) (inside : site.parent < state.tree.size) :
    Steps all ⟨done, opened, here, state⟩
      ⟨done ++ ⟨here, .enum, fields.name⟩ :: constantsIn (here + 1) inner, opened,
        here + 1 + (preorderAll inner).length, readEnum state site fields inner⟩ := by
  let node : Decl.Node :=
    { kind := .enum, name := fields.name, access := site.access
      flags := { included := site.included } }
  have added : Step all ⟨done, opened, here, state⟩
      ⟨done ++ [⟨here, .enum, fields.name⟩], opened, here + 1, state.push site.parent node⟩ :=
    .plain done node found enum rfl inside (within.mono (Nat.le_add_right _ _))
  refine Steps.andThen (.single added) ?_ size
  intro size _
  refine steps_readConstants _ covers (within.append _) size ?_
  rw [State.size_push]
  exact Nat.lt_succ_self _

theorem steps_readFunction (kind : Kind) (plain : isScope kind = false)
    (found : all[here]? = some ⟨fields, inner⟩) (function : fields.kind = nodeKind kind)
    (within : Within all done opened (here + 1 + (preorderAll inner).length))
    (inside : site.parent < state.tree.size) :
    Steps all ⟨done, opened, here, state⟩ ⟨done ++ functionOrigins here kind fields, opened,
      here + 1 + (preorderAll inner).length, readFunction state site kind fields inner⟩ := by
  unfold readFunction functionOrigins
  by_cases outside : fields.isOutOfLine = true
  · simp only [if_pos outside, List.append_nil]
    exact .skip here (by omega) within state inner
  · simp only [if_neg outside]
    exact .leaf done (functionNode site kind fields inner) found function plain inside within

end

/-! ## The whole document -/

mutual

theorem steps_readAll {all : List Node} {done : List Origin} {opened : List NodeId} {here : Nat}
    (mainFile : String) (parent : NodeId) (access : Access) (state : State) :
    (nodes : List Node) → Covers all here nodes →
      Within all done opened (here + (preorderAll nodes).length) →
      state.tree.size = done.length → parent < state.tree.size →
        Steps all ⟨done, opened, here, state⟩ ⟨done ++ originsIn here nodes, opened,
          here + (preorderAll nodes).length, readAll mainFile parent access state nodes⟩
  | [], _, _, _, _ => by
      rw [readAll, originsIn, List.append_nil]
      exact .refl
  | ⟨fields, inner⟩ :: rest, covers, within, size, inside => by
      obtain ⟨found, coversInner, coversRest⟩ := covers.cons
      rw [add_length_preorderAll_cons] at within ⊢
      have near : Within all done opened (here + 1 + (preorderAll inner).length) :=
        within.mono (Nat.le_add_right _ _)
      have next : Within all done opened (here + 1) := near.mono (Nat.le_add_right _ _)
      have behind : here + 1 ≤ here + 1 + (preorderAll inner).length := Nat.le_add_right _ _
      have located (files : List String) :
          Step all ⟨done, opened, here, state⟩ ⟨done, opened, here, state.follow files⟩ :=
        .pass (Nat.le_refl _) (next.mono (Nat.le_succ _)) files
      rw [readAll, originsIn_cons]
      simp only [State.follow_follow]
      refine .head (located (fields.files ++ fields.rangeFiles)) ?_
      have moved_size : (state.follow (fields.files ++ fields.rangeFiles)).tree.size =
        done.length := size
      have moved_inside : parent < (state.follow (fields.files ++ fields.rangeFiles)).tree.size :=
        inside
      revert moved_size moved_inside
      generalize state.follow (fields.files ++ fields.rangeFiles) = moved
      intro moved_size moved_inside
      have passed : Steps all ⟨done, opened, here, moved⟩
          ⟨done ++ [], opened, here + 1 + (preorderAll inner).length, moved.skip inner⟩ := by
        rw [List.append_nil]
        exact .skip here (by omega) near moved inner
      by_cases accessSpec : fields.kind = "AccessSpecDecl"
      · rw [if_pos accessSpec, origins_of_passed (.inl accessSpec)]
        exact passed.andThen (fun size grown => steps_readAll mainFile parent _ _ rest coversRest
          (within.append _) size (Nat.lt_of_lt_of_le moved_inside grown)) moved_size
      rw [if_neg accessSpec]
      refine Steps.andThen ?_
        (fun size grown => steps_readAll mainFile parent _ _ rest coversRest (within.append _) size
          (Nat.lt_of_lt_of_le moved_inside grown)) moved_size
      by_cases implicit : fields.isImplicit = true
      · rw [if_pos implicit, origins_of_passed (.inr implicit)]
        exact passed
      rw [if_neg implicit]
      -- One case for each kind of node, in the order of `readAll`.
      split
      · rename_i kind
        rw [origins_namespace implicit kind]
        let node : Decl.Node :=
          { kind := .namespaceScope, name := fields.name
            flags := { included := (state.follow fields.files).isIncluded mainFile } }
        have added : Step all ⟨done, opened, here, moved⟩ ⟨done ++ [_], opened, here + 1, _⟩ :=
          .own done node found kind nofun nofun moved_inside next
        rw [State.add_of_namespace rfl] at added
        refine Steps.andThen (.single added) ?_ moved_size
        intro size _
        refine steps_readAll mainFile _ _ _ inner coversInner (near.append _) size ?_
        rw [State.size_mark, State.size_push]
        exact Nat.lt_succ_self _
      · rename_i kind
        rw [origins_around implicit (.inl kind)]
        exact .head (.pass (Nat.le_succ here) next []) (steps_readAll mainFile parent _ _ inner
          coversInner near moved_size moved_inside)
      · rename_i kind
        rw [origins_around implicit (.inr kind)]
        exact .head (.pass (Nat.le_succ here) next []) (steps_readAll mainFile parent _ _ inner
          coversInner near moved_size moved_inside)
      · rename_i kind
        rw [origins_typedef implicit kind]
        exact .leaf done (aliasNode _ .typedef fields) found kind rfl moved_inside near
      · rename_i kind
        rw [origins_typeAlias implicit kind]
        exact .leaf done (aliasNode _ .typeAlias fields) found kind rfl moved_inside near
      · rename_i kind
        by_cases union : fields.tag = "union"
        · rw [origins_union implicit kind union, if_pos union]
          exact passed
        · rw [origins_record implicit kind union, if_neg union]
          let site : Site :=
            ⟨parent, fields.access?.getD access,
              (state.follow fields.files).isIncluded mainFile⟩
          have record : (recordNode site none fields).kind.isRecord := isRecord_recordKind fields
          have added : Step all ⟨done, opened, here, moved⟩ ⟨done ++ [_], opened, here + 1, _⟩ :=
            .own done (recordNode site none fields) found
              (kind.trans (nodeKind_recordKind fields).symm) (recordKind_ne rfl fields)
              (recordKind_ne_classTemplate fields) moved_inside next
          rw [← openRecord_eq_add record] at added
          refine Steps.andThen (.single added) ?_ moved_size
          intro size _
          refine steps_readAll mainFile _ _ _ inner coversInner (near.append _) size ?_
          rw [openRecord_eq_add record, State.size_add]
          exact Nat.lt_succ_self _
      · rename_i kind
        rw [origins_template implicit kind]
        have length : (Node.nodes ⟨fields, inner⟩).length = (preorderAll inner).length + 1 := by
          rw [Node.length_nodes, Node.preorder, List.length_cons]
        exact steps_readTemplate mainFile _ ⟨fields, inner⟩ moved inner coversInner found kind
          (if_pos kind) (Nat.lt_succ_self here) (by omega) near moved_size moved_inside
      · rename_i kind
        rw [origins_enum implicit kind]
        exact steps_readEnum coversInner found kind near moved_size moved_inside
      · rename_i kind
        rw [origins_method implicit kind]
        exact steps_readFunction .method rfl found kind near moved_inside
      · rename_i kind
        rw [origins_creator implicit kind]
        exact steps_readFunction .creator rfl found kind near moved_inside
      · have own : Node.origins here ⟨fields, inner⟩ = [] := by grind
        rw [own]
        exact passed
termination_by nodes => sizeOf nodes

theorem steps_readTemplate {all : List Node} {done : List Origin} {opened : List NodeId}
    {here start : Nat} (mainFile : String) (site : Site) (own : Node) (state : State) :
    (nodes : List Node) → Covers all start nodes → all[here]? = some own →
      own.fields.kind = "ClassTemplateDecl" →
      own.body = (nodes.find? fun child => child.fields.kind = "CXXRecordDecl").getD own →
      here < start → here + own.nodes.length = start + (preorderAll nodes).length →
      Within all done opened (start + (preorderAll nodes).length) →
      state.tree.size = done.length → site.parent < state.tree.size →
        Steps all ⟨done, opened, here, state⟩ ⟨done ++ templateOrigins here start nodes, opened,
          start + (preorderAll nodes).length,
          readTemplate mainFile site own.fields state nodes⟩
  | [], _, _, _, _, here_lt, _, within, _, _ => by
      rw [readTemplate, templateOrigins, List.append_nil]
      exact .skip here (Nat.le_of_lt here_lt) within state []
  | ⟨fields, inner⟩ :: rest, covers, own_found, template, body, here_lt, ends, within, size,
      inside => by
      obtain ⟨found, coversInner, coversRest⟩ := covers.cons
      rw [add_length_preorderAll_cons] at ends within ⊢
      have near : Within all done opened (start + 1 + (preorderAll inner).length) :=
        within.mono (Nat.le_add_right _ _)
      have located (files : List String) :
          Step all ⟨done, opened, here, state⟩ ⟨done, opened, here, state.follow files⟩ :=
        .pass (Nat.le_refl _) (near.mono (by omega)) files
      refine .head (located (fields.files ++ fields.rangeFiles)) ?_
      rw [readTemplate, templateOrigins]
      have moved_size : (state.follow (fields.files ++ fields.rangeFiles)).tree.size =
        done.length := size
      have moved_inside : site.parent <
        (state.follow (fields.files ++ fields.rangeFiles)).tree.size := inside
      revert moved_size moved_inside
      generalize state.follow (fields.files ++ fields.rangeFiles) = moved
      intro moved_size moved_inside
      by_cases record : fields.kind = "CXXRecordDecl"
      · simp only [if_pos record]
        by_cases union : fields.tag = "union"
        · simp only [if_pos union, List.append_nil]
          have passed := Steps.skip here (by omega) near moved inner
          exact passed.tail (.pass (Nat.le_add_right _ _) within _)
        · simp only [if_neg union]
          have own_body : own.body = ⟨fields, inner⟩ := by
            simpa [Node.fields, record] using body
          let node := recordNode site (some .classTemplate) fields
          let origin : Origin := ⟨here, .classTemplate, fields.name⟩
          have added : Step all ⟨done, opened, here, moved⟩
              ⟨done ++ [origin], done.length :: opened, start + 1,
                moved.add site.parent node own.body.fields⟩ :=
            .add node own_found (own_body.symm ▸ found) (Nat.le_of_lt here_lt) template
              nofun moved_inside (near.mono (Nat.le_add_right _ _))
          rw [own_body] at added
          -- The template is open until the nodes behind the record have been passed over.
          have open_end : Within all (done ++ [origin]) (done.length :: opened)
              (start + 1 + (preorderAll inner).length + (preorderAll rest).length) :=
            within.cons own_found (Nat.le_of_eq ends.symm)
          have members := steps_readAll mainFile moved.tree.size (memberAccess fields)
            (moved.add site.parent node fields) inner coversInner
            (open_end.mono (Nat.le_add_right _ _)) (added.size moved_size)
            (by rw [State.size_add]; exact Nat.lt_succ_self _)
          have listed : (done ++ [origin] ++ originsIn (start + 1) inner)[done.length]? =
              some origin := by
            rw [List.append_assoc, List.getElem?_append_right (Nat.le_refl _), Nat.sub_self]
            rfl
          have behind := (Relation.ReflTransGen.head added members).tail
            (.pass (Nat.le_add_right _ _) (open_end.append _) (filesUnder rest))
          have closed := behind.tail (.close listed rfl own_found ends.symm)
          rw [openRecord_eq_add rfl, State.mark_skip, moved_size, ← List.append_cons] at *
          exact closed
      · simp only [if_neg record]
        have other : own.body =
            (rest.find? fun child => child.fields.kind = "CXXRecordDecl").getD own := by
          simpa [Node.fields, record] using body
        have passed := Steps.skip here (Nat.le_refl _) (near.mono (by omega)) moved inner
        exact passed.trans (steps_readTemplate mainFile site own (moved.skip inner) rest coversRest
          own_found template other (by omega) ends within moved_size moved_inside)
termination_by nodes => sizeOf nodes

end

/-- The steps in which a document is read. -/
theorem steps_treeOf {document : Json.Value} (mainFile : String)
    (isUnit : document.textField? "kind" = some "TranslationUnitDecl") :
    let header : Origin := ⟨0, .unit, ""⟩
    let fields := Fields.ofValue document
    ∃ start after : State, treeOf document mainFile = .ok after.tree ∧ start.tree = .empty ∧
      start.scopes = (State.mark { tree := .empty } fields Tree.root).scopes ∧
      Steps ((writtenNodes document).map Node.ofValue) ⟨[header], [], 1, start⟩
        ⟨header :: originsOf document, [], (writtenNodes document).length, after⟩ := by
  intro header fields
  let inner := (innerValues document).map Node.ofValue
  have root : Node.ofValue document = ⟨fields, inner⟩ := ofValue_eq document
  have nodes : (writtenNodes document).map Node.ofValue = ⟨fields, inner⟩ :: nodesIn inner := by
    rw [← nodes_ofValue, root, Node.nodes]
  have length : (writtenNodes document).length = 1 + (preorderAll inner).length := by
    rw [← List.length_map (f := Node.ofValue), nodes, List.length_cons, length_nodesIn,
      Nat.add_comm]
  have kind : fields.kind = "TranslationUnitDecl" := by simp [fields, Fields.ofValue, isUnit]
  let located : State := State.follow { tree := .empty } (fields.files ++ fields.rangeFiles)
  let start := located.mark fields Tree.root
  have start_tree : start.tree = .empty := tree_mark ..
  have covers : Covers ((writtenNodes document).map Node.ofValue) 1 inner := by
    rw [nodes]
    exact List.prefix_rfl
  have steps : Steps _ ⟨[header], [], 1, start⟩ _ :=
    steps_readAll mainFile Tree.root .unspecified start inner covers (List.forall_mem_nil _)
      (by rw [start_tree]; rfl) (by rw [start_tree]; exact Nat.zero_lt_one)
  rw [length, originsOf, root]
  refine ⟨start, _, ?_, start_tree, ?_, steps⟩
  · rw [treeOf, root, treeOfNode, Node.fields, Node.inner, if_neg (not_not.mpr kind)]
  · simp only [start, State.mark]
    split <;> rfl

end Clang
end HeaderBinding
