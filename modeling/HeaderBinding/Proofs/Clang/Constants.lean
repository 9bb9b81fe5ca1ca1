import HeaderBinding.Proofs.Clang.Origin
import HeaderBinding.Proofs.Decl.Contents

/-!
# Constants of the enums that are read

An enum gets exactly the constants under its node, in their order. What is read before or after it
does not add to it: a node adds declarations to the one around it and to its own only.
-/

namespace HeaderBinding
namespace Clang

open Decl (Access Content Kind NodeId Tree)

/-! ## Nodes with those under them -/

mutual

/-- A node and those under it, in the order of the document. -/
def Node.nodes : Node → List Node
  | ⟨fields, inner⟩ => ⟨fields, inner⟩ :: nodesIn inner

/-- Nodes and those under them, in the order of the document. -/
def nodesIn : List Node → List Node
  | [] => []
  | node :: rest => node.nodes ++ nodesIn rest

end

theorem nodesIn_eq_flatMap (nodes : List Node) : nodesIn nodes = nodes.flatMap Node.nodes := by
  induction nodes with
  | nil => rfl
  | cons node rest induction => rw [nodesIn, induction, List.flatMap_cons]

theorem nodes_ofValue (value : Json.Value) :
    (Node.ofValue value).nodes = (writtenNodes value).map Node.ofValue := by
  induction value using writtenNodes.induct with
  | case1 value induction =>
      rw [ofValue_eq, Node.nodes, nodesIn_eq_flatMap, List.flatMap_map, writtenNodes_eq,
        List.map_cons, List.map_flatMap, ofValue_eq value]
      congr 1
      exact List.flatMap_congr fun child inside => induction ⟨child, inside⟩

mutual

theorem Node.length_nodes : (node : Node) → node.nodes.length = node.preorder.length
  | ⟨fields, inner⟩ => by
      rw [Node.nodes, Node.preorder, List.length_cons, List.length_cons, length_nodesIn inner]

theorem length_nodesIn : (nodes : List Node) → (nodesIn nodes).length = (preorderAll nodes).length
  | [] => rfl
  | node :: rest => by
      rw [nodesIn, preorderAll, List.length_append, List.length_append, node.length_nodes,
        length_nodesIn rest]

end

/-- The nodes are those of the document from the one at `here` on, with those under them. -/
def Covers (all : List Node) (here : Nat) (nodes : List Node) : Prop :=
  nodesIn nodes <+: all.drop here

/-- At a node the reader comes to the nodes under it first, and to those after it then. -/
theorem Covers.cons {all inner rest : List Node} {here : Nat} {fields : Fields}
    (covers : Covers all here (⟨fields, inner⟩ :: rest)) :
    all[here]? = some ⟨fields, inner⟩ ∧ Covers all (here + 1) inner ∧
      Covers all (here + 1 + (preorderAll inner).length) rest := by
  rw [Covers, nodesIn, Node.nodes, List.cons_append] at covers
  rw [← length_nodesIn]
  exact cons_append_drop covers

/-! ## The constants of one enum -/

/-- The constants that nodes under an enum declare; `next` is the value of a constant without nodes
under it. -/
def constantsFrom (next : Option Int) : List Node → List Content
  | [] => []
  | ⟨fields, inner⟩ :: rest =>
      if fields.kind = "EnumConstantDecl" then
        let value? := if inner.isEmpty then next else constantUnder? inner
        ⟨.enumConstant, fields.name, value?⟩ ::
          constantsFrom ((value?.map (· + 1)).filter Text.fitsInt64) rest
      else constantsFrom next rest

theorem kind_of_mem_constantsIn {start : Nat} {nodes : List Node} {origin : Origin}
    (listed : origin ∈ constantsIn start nodes) : origin.kind = .enumConstant := by
  induction nodes generalizing start with
  | nil => cases listed
  | cons node rest induction =>
      obtain ⟨fields, inner⟩ := node
      rw [constantsIn] at listed
      split at listed
      · rcases List.mem_cons.mp listed with rfl | later
        · rfl
        · exact induction later
      · exact induction listed

/-- The constants of an enum are added to it and to nothing else. -/
theorem contents_readConstants {enum : NodeId} (here : Nat) (next : Option Int) (state : State)
    (nodes : List Node) (wf : state.tree.WellFormed) (inside : enum < state.tree.size) :
    let after := (readConstants enum next state nodes).tree
    after.WellFormed ∧ after.size = state.tree.size + (constantsIn here nodes).length ∧
      ∀ id, after.contents id =
        state.tree.contents id ++ if enum = id then constantsFrom next nodes else [] := by
  induction nodes generalizing here next state with
  | nil =>
      refine ⟨wf, rfl, fun id => ?_⟩
      rw [readConstants, constantsFrom, ite_self, List.append_nil]
  | cons node rest induction =>
      obtain ⟨fields, inner⟩ := node
      rw [readConstants, constantsIn, constantsFrom]
      by_cases constant : fields.kind = "EnumConstantDecl"
      · simp only [if_pos constant]
        let value? := if inner.isEmpty then next else constantUnder? inner
        let added : Decl.Node := { kind := .enumConstant, name := fields.name, value? }
        let grown := ((state.follow (fields.files ++ fields.rangeFiles)).push enum added).skip inner
        have grown_wf : grown.tree.WellFormed := wf.push (Nat.le_of_lt inside) added
        have grown_size : grown.tree.size = state.tree.size + 1 := Tree.size_push
        have grown_contents (id : NodeId) : grown.tree.contents id =
            state.tree.contents id ++ if enum = id then [added.content] else [] :=
          Tree.contents_push wf inside id
        obtain ⟨after_wf, size_eq, contents_eq⟩ := induction
          (here + 1 + (preorderAll inner).length) ((value?.map (· + 1)).filter Text.fitsInt64) grown
          grown_wf (grown_size ▸ Nat.lt_succ_of_lt inside)
        refine ⟨after_wf, ?_, fun id => ?_⟩
        · rw [size_eq, grown_size, List.length_cons, Nat.add_assoc, Nat.add_comm 1]
        · rw [contents_eq, grown_contents, List.append_assoc]
          split <;> rfl
      · simp only [if_neg constant]
        exact induction _ next _ wf inside

/-! ## What reading adds -/

/-- Nodes under `parent` have been read, of which `origins` are declared. Declarations that were
there before have got nothing new, apart from `parent`, and each enum has the constants under its
node. -/
structure Adds (all : List Node) (parent : NodeId) (before : Tree) (origins : List Origin)
    (after : Tree) : Prop where
  wellFormed : after.WellFormed
  size : after.size = before.size + origins.length
  kept : ∀ id < before.size, id ≠ parent → after.contents id = before.contents id
  enums : ∀ number origin, origins[number]? = some origin → origin.kind = .enum →
    ∃ node, all[origin.place]? = some node ∧
      after.contents (before.size + number) = constantsFrom (some 0) node.inner

section

variable {all inner rest nodes : List Node} {parent : NodeId} {before middle after : Tree}
  {origins later : List Origin} {origin : Origin} {state : State} {fields : Fields} {site : Site}
  {here place : Nat}

namespace Adds

theorem nothing (wf : before.WellFormed) : Adds all parent before [] before where
  wellFormed := wf
  size := rfl
  kept _ _ _ := rfl
  enums _ _ found := by cases found

/-- What is read later adds to the declaration around it or to one that no enum stands for. -/
theorem append {other : NodeId} (first : Adds all parent before origins middle)
    (inside : parent < before.size)
    (apart : other = parent ∨ before.size ≤ other ∧ ∀ number origin,
      origins[number]? = some origin → origin.kind = .enum → before.size + number ≠ other)
    (second : Adds all other middle later after) :
    Adds all parent before (origins ++ later) after where
  wellFormed := second.wellFormed
  size := by
    rw [second.size, first.size, List.length_append, Nat.add_assoc]
  kept id known differs := by
    have other_ne : id ≠ other := by
      rcases apart with rfl | ⟨new, -⟩
      · exact differs
      · exact Nat.ne_of_lt (Nat.lt_of_lt_of_le known new)
    have still : id < middle.size := first.size ▸ Nat.lt_add_right _ known
    rw [second.kept id still other_ne, first.kept id known differs]
  enums number origin found enum := by
    rcases Nat.lt_or_ge number origins.length with early | late
    · rw [List.getElem?_append_left early] at found
      obtain ⟨node, written, contents_eq⟩ := first.enums number origin found enum
      have still : before.size + number < middle.size := by
        rw [first.size]
        exact Nat.add_lt_add_left early _
      have other_ne : before.size + number ≠ other := by
        rcases apart with rfl | ⟨-, noEnum⟩
        · exact Nat.ne_of_gt (Nat.lt_add_right _ inside)
        · exact noEnum number origin found enum
      exact ⟨node, written, (second.kept _ still other_ne).trans contents_eq⟩
    · rw [List.getElem?_append_right late] at found
      obtain ⟨node, written, contents_eq⟩ := second.enums _ origin found enum
      rw [first.size, Nat.add_assoc, Nat.add_sub_cancel' late] at contents_eq
      exact ⟨node, written, contents_eq⟩

/-- Nodes beside those that were read first. -/
theorem andThen (first : Adds all parent before origins middle) (inside : parent < before.size)
    (second : middle.WellFormed → parent < middle.size → Adds all parent middle later after) :
    Adds all parent before (origins ++ later) after := by
  refine first.append inside (.inl rfl) (second first.wellFormed ?_)
  rw [first.size]
  exact Nat.lt_add_right _ inside

/-- Nodes under the one of a declaration that is no enum. -/
theorem within (first : Adds all parent before [origin] middle) (inside : parent < before.size)
    (noEnum : origin.kind ≠ .enum)
    (second : middle.WellFormed → before.size < middle.size →
      Adds all before.size middle later after) :
    Adds all parent before (origin :: later) after := by
  refine first.append inside (.inr ⟨Nat.le_refl _, ?_⟩) (second first.wellFormed ?_)
  · intro number other found enum
    obtain rfl := List.mem_singleton.mp (List.mem_of_getElem? found)
    exact absurd enum noEnum
  · rw [first.size]
    exact Nat.lt_succ_self _

theorem push (wf : before.WellFormed) (inside : parent < before.size) (node : Decl.Node)
    (noEnum : origin.kind ≠ .enum) : Adds all parent before [origin] (before.push parent node) where
  wellFormed := wf.push (Nat.le_of_lt inside) node
  size := Tree.size_push
  kept id _ differs := by
    rw [Tree.contents_push wf inside, if_neg differs.symm, List.append_nil]
  enums number other found enum := by
    obtain rfl := List.mem_singleton.mp (List.mem_of_getElem? found)
    exact absurd enum noEnum

theorem setScope (adds : Adds all parent before origins after) (id scope : NodeId) :
    Adds all parent before origins (after.setScope id scope) where
  wellFormed := adds.wellFormed.setScope id scope
  size := by rw [Tree.size_setScope, adds.size]
  kept other known differs := by rw [Tree.contents_setScope, adds.kept other known differs]
  enums number origin found enum := by
    simpa only [Tree.contents_setScope] using adds.enums number origin found enum

end Adds

theorem tree_mark (state : State) (fields : Fields) (id : NodeId) :
    (state.mark fields id).tree = state.tree := by
  unfold State.mark
  split <;> rfl

theorem adds_openRecord (kind? : Option Kind) (fields : Fields) (wf : state.tree.WellFormed)
    (inside : site.parent < state.tree.size) (noEnum : origin.kind ≠ .enum) :
    Adds all site.parent state.tree [origin] (openRecord state site kind? fields).tree := by
  let opened := state.push site.parent (recordNode site kind? fields)
  have own :
      Adds all site.parent state.tree [origin] (opened.mark fields state.tree.size).tree := by
    rw [tree_mark]
    exact .push wf inside _ noEnum
  unfold openRecord State.relink
  dsimp only
  split
  · exact own.setScope _ _
  · exact own

theorem adds_readEnum (written : all[here]? = some ⟨fields, inner⟩) (wf : state.tree.WellFormed)
    (inside : site.parent < state.tree.size) :
    Adds all site.parent state.tree (⟨here, .enum, fields.name⟩ :: constantsIn (here + 1) inner)
      (readEnum state site fields inner).tree := by
  let enum : Decl.Node :=
    { kind := .enum, name := fields.name, access := site.access
      flags := { included := site.included } }
  have pushed : (state.push site.parent enum).tree.size = state.tree.size + 1 := Tree.size_push
  obtain ⟨after_wf, size_eq, contents_eq⟩ := contents_readConstants (here + 1) (some 0)
    (state.push site.parent enum) inner (wf.push (Nat.le_of_lt inside) enum)
    (by rw [pushed]; exact Nat.lt_succ_self state.tree.size)
  have contents_push := @Tree.contents_push state.tree site.parent enum wf inside
  refine ⟨after_wf, ?_, fun id known differs => ?_, ?_⟩
  · rw [readEnum, size_eq, pushed, List.length_cons]
    omega
  · rw [readEnum, contents_eq, if_neg (Nat.ne_of_gt known), List.append_nil]
    exact (contents_push id).trans (by rw [if_neg differs.symm, List.append_nil])
  · intro number origin found isEnum
    cases number with
    | zero =>
        cases found
        have fresh : (state.push site.parent enum).tree.contents state.tree.size = [] := by
          refine (contents_push _).trans ?_
          rw [Tree.contents_of_size_le (Nat.le_refl _), if_neg (Nat.ne_of_lt inside)]
          rfl
        refine ⟨_, written, ?_⟩
        rw [readEnum, Nat.add_zero, contents_eq, fresh, if_pos rfl]
        rfl
    | succ number =>
        have constant := kind_of_mem_constantsIn (List.mem_of_getElem? found)
        rw [constant] at isEnum
        cases isEnum

theorem adds_readFunction (kind : Kind) (noEnum : kind ≠ .enum) (wf : state.tree.WellFormed)
    (inside : site.parent < state.tree.size) :
    Adds all site.parent state.tree (functionOrigins here kind fields)
      (readFunction state site kind fields inner).tree := by
  unfold readFunction functionOrigins
  by_cases outside : fields.isOutOfLine = true
  · simp only [if_pos outside]
    exact .nothing wf
  · simp only [if_neg outside]
    exact .push wf inside _ noEnum

end

mutual

theorem adds_readAll {all : List Node} (mainFile : String) {here : Nat} (parent : NodeId)
    (access : Access) (state : State) :
    (nodes : List Node) → Covers all here nodes → state.tree.WellFormed →
      parent < state.tree.size →
        Adds all parent state.tree (originsIn here nodes)
          (readAll mainFile parent access state nodes).tree
  | [], _, wf, _ => by
      rw [readAll, originsIn]
      exact .nothing wf
  | ⟨fields, inner⟩ :: rest, covers, wf, inside => by
      obtain ⟨written, coversInner, coversRest⟩ := covers.cons
      rw [readAll, originsIn_cons]
      let located := (state.follow fields.files).follow fields.rangeFiles
      let site : Site := ⟨parent, fields.access?.getD access,
        (state.follow fields.files).isIncluded mainFile⟩
      have located_inside : site.parent < located.tree.size := inside
      have located_wf : located.tree.WellFormed := wf
      have passed : Adds all parent state.tree [] (located.skip inner).tree := .nothing wf
      by_cases accessSpec : fields.kind = "AccessSpecDecl"
      · rw [if_pos accessSpec, origins_of_passed (.inl accessSpec)]
        exact passed.andThen inside (adds_readAll mainFile parent _ _ rest coversRest)
      rw [if_neg accessSpec]
      refine Adds.andThen ?_ inside (adds_readAll mainFile parent _ _ rest coversRest)
      by_cases implicit : fields.isImplicit = true
      · rw [if_pos implicit, origins_of_passed (.inr implicit)]
        exact passed
      rw [if_neg implicit]
      -- One case for each kind of node, in the order of `readAll`.
      split
      · rename_i kind
        rw [origins_namespace implicit kind]
        refine Adds.within ?_ inside nofun (adds_readAll mainFile _ _ _ inner coversInner)
        rw [tree_mark]
        exact .push wf inside _ nofun
      · rename_i kind
        rw [origins_around implicit (.inl kind)]
        exact adds_readAll mainFile parent _ located inner coversInner wf inside
      · rename_i kind
        rw [origins_around implicit (.inr kind)]
        exact adds_readAll mainFile parent _ located inner coversInner wf inside
      · rename_i kind
        rw [origins_typedef implicit kind]
        exact .push wf inside _ nofun
      · rename_i kind
        rw [origins_typeAlias implicit kind]
        exact .push wf inside _ nofun
      · rename_i kind
        by_cases union : fields.tag = "union"
        · rw [origins_union implicit kind union, if_pos union]
          exact passed
        · rw [origins_record implicit kind union, if_neg union]
          have noEnum := @recordKind_ne .enum rfl fields
          have opened : Adds all parent state.tree [⟨here, recordKind fields, fields.name⟩]
              (openRecord located site none fields).tree :=
            adds_openRecord none fields located_wf located_inside noEnum
          exact opened.within inside noEnum (adds_readAll mainFile _ _ _ inner coversInner)
      · rename_i kind
        rw [origins_template implicit kind]
        exact adds_readTemplate mainFile site fields located inner coversInner wf inside
      · rename_i kind
        rw [origins_enum implicit kind]
        exact adds_readEnum written located_wf located_inside
      · rename_i kind
        rw [origins_method implicit kind]
        exact adds_readFunction .method nofun located_wf located_inside
      · rename_i kind
        rw [origins_creator implicit kind]
        exact adds_readFunction .creator nofun located_wf located_inside
      · have own : Node.origins here ⟨fields, inner⟩ = [] := by grind
        rw [own]
        exact passed
termination_by nodes => sizeOf nodes

theorem adds_readTemplate {all : List Node} (mainFile : String) {here place : Nat} (site : Site)
    (template : Fields) (state : State) :
    (nodes : List Node) → Covers all here nodes → state.tree.WellFormed →
      site.parent < state.tree.size →
        Adds all site.parent state.tree (templateOrigins place here nodes)
          (readTemplate mainFile site template state nodes).tree
  | [], _, wf, _ => by
      rw [readTemplate, templateOrigins]
      exact .nothing wf
  | ⟨fields, inner⟩ :: rest, covers, wf, inside => by
      obtain ⟨-, coversInner, coversRest⟩ := covers.cons
      rw [readTemplate, templateOrigins]
      let located := state.follow (fields.files ++ fields.rangeFiles)
      have located_inside : site.parent < located.tree.size := inside
      have located_wf : located.tree.WellFormed := wf
      by_cases record : fields.kind = "CXXRecordDecl"
      · simp only [if_pos record]
        by_cases union : fields.tag = "union"
        · simp only [if_pos union]
          exact .nothing wf
        · simp only [if_neg union]
          have noEnum : Kind.classTemplate ≠ .enum := nofun
          have opened : Adds all site.parent state.tree [⟨place, .classTemplate, fields.name⟩]
              (openRecord located site (some .classTemplate) fields).tree :=
            adds_openRecord _ fields located_wf located_inside noEnum
          show Adds all site.parent state.tree _ (State.mark _ template _).tree
          rw [tree_mark]
          exact opened.within inside noEnum (adds_readAll mainFile _ _ _ inner coversInner)
      · simp only [if_neg record]
        exact adds_readTemplate mainFile site template (located.skip inner) rest coversRest wf
          inside
termination_by nodes => sizeOf nodes

end

/-- What is added when a whole document is read. -/
theorem adds_treeOf {document : Json.Value} (mainFile : String)
    (isUnit : document.textField? "kind" = some "TranslationUnitDecl") :
    ∃ tree, treeOf document mainFile = .ok tree ∧ Adds ((writtenNodes document).map Node.ofValue)
      Tree.root .empty (originsOf document) tree := by
  let inner := (innerValues document).map Node.ofValue
  have root : Node.ofValue document = ⟨Fields.ofValue document, inner⟩ := ofValue_eq document
  have covers : Covers ((writtenNodes document).map Node.ofValue) 1 inner := by
    rw [← nodes_ofValue, root, Node.nodes]
    exact List.prefix_rfl
  have kind : (Fields.ofValue document).kind = "TranslationUnitDecl" := by
    simp [Fields.ofValue, isUnit]
  let start : State := (State.follow { tree := .empty } ((Fields.ofValue document).files ++
    (Fields.ofValue document).rangeFiles)).mark (Fields.ofValue document) Tree.root
  have start_tree : start.tree = .empty := tree_mark ..
  have adds := adds_readAll mainFile Tree.root .unspecified start inner covers
    (by rw [start_tree]; exact .empty) (by rw [start_tree]; exact Nat.zero_lt_one)
  rw [start_tree] at adds
  rw [originsOf, root]
  refine ⟨_, ?_, adds⟩
  rw [treeOf, root, treeOfNode, Node.fields, Node.inner, if_neg (not_not.mpr kind)]

end Clang
end HeaderBinding
