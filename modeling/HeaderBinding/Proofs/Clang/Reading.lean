import HeaderBinding.Proofs.Clang.Origin
import HeaderBinding.Proofs.Decl.Summary

/-!
# Files of declarations

A declaration is marked as included exactly if the file named last, up to the location of its node,
is another one than the header. All nodes of the document count for this, also those that declare
nothing: the reader passes each of them once, in the order of the document.
-/

namespace HeaderBinding
namespace Clang

open Decl (Access Kind NodeId Summary Tree)

/-! ## Where the reader stands -/

/-- The nodes are those of the document from the one at `here` on. -/
def Stand (all : List Fields) (here : Nat) (nodes : List Node) : Prop :=
  preorderAll nodes <+: all.drop here

section

variable {all : List Fields} {here : Nat} {state : State} {fields : Fields}
  {inner rest nodes : List Node}

theorem preorderAll_cons : preorderAll (⟨fields, inner⟩ :: rest) =
    fields :: (preorderAll inner ++ preorderAll rest) := by
  rw [preorderAll, Node.preorder, List.cons_append]

theorem add_length_preorderAll_cons : here + (preorderAll (⟨fields, inner⟩ :: rest)).length =
    here + 1 + (preorderAll inner).length + (preorderAll rest).length := by
  rw [preorderAll_cons, List.length_cons, List.length_append]
  omega

/-- At a node the reader comes to the nodes under it first, and to those after it then. -/
theorem Stand.cons (stand : Stand all here (⟨fields, inner⟩ :: rest)) :
    all[here]? = some fields ∧ Stand all (here + 1) inner ∧
      Stand all (here + 1 + (preorderAll inner).length) rest := by
  rw [Stand, preorderAll_cons] at stand
  exact cons_append_drop stand

/-- The current file is the one named last in the first `here` nodes of the document. -/
def State.IsAt (all : List Fields) (here : Nat) (state : State) : Prop :=
  state.file? = fileAfter? all here

theorem State.IsAt.follow {read : List Fields} (isAt : state.IsAt all here)
    (next : read <+: all.drop here) :
    (state.follow (read.flatMap Fields.allFiles)).IsAt all (here + read.length) := by
  have taken : all.take (here + read.length) = all.take here ++ read := by
    rw [List.take_add, ← List.prefix_iff_eq_take.mp next]
  rw [IsAt, fileAfter?, taken, List.flatMap_append, List.getLast?_append, ← fileAfter?, ← isAt,
    State.follow]

theorem State.IsAt.skip (isAt : state.IsAt all here) (stand : Stand all here nodes) :
    (state.skip nodes).IsAt all (here + (preorderAll nodes).length) := by
  rw [State.skip, filesUnder_eq]
  exact isAt.follow stand

/-- After the locations of a node the reader stands behind it. -/
theorem State.IsAt.next (isAt : state.IsAt all here) (found : all[here]? = some fields) :
    (state.follow (fields.files ++ fields.rangeFiles)).IsAt all (here + 1) := by
  have next : [fields] <+: all.drop here := by
    obtain ⟨here_lt, rfl⟩ := List.getElem?_eq_some_iff.mp found
    rw [List.drop_eq_getElem_cons here_lt]
    exact ⟨_, rfl⟩
  simpa [Fields.allFiles] using isAt.follow next

theorem State.follow_follow (state : State) (first second : List String) :
    (state.follow first).follow second = state.follow (first ++ second) := by
  simp [State.follow, List.getLast?_append, Option.or_assoc]

/-- The file that is current at the location of a node is another one than the header. -/
def isIncludedAt (all : List Fields) (mainFile : String) (place : Nat) : Bool :=
  (fileAt? all place).any fun file => !Path.same file mainFile

theorem State.IsAt.isIncluded (isAt : state.IsAt all here) (found : all[here]? = some fields)
    (mainFile : String) :
    (state.follow fields.files).isIncluded mainFile = isIncludedAt all mainFile here := by
  have file_eq : (state.follow fields.files).file? = fileAt? all here := by
    rw [fileAt?, found, List.getLast?_append, ← fileAfter?, ← isAt]
    rfl
  rw [State.isIncluded, file_eq, isIncludedAt]

end

/-! ## What reading does -/

/-- What is listed of the declaration with an origin. A constant is never marked. -/
def Origin.summary (all : List Fields) (mainFile : String) (origin : Origin) : Summary :=
  ⟨origin.kind, origin.name,
    origin.kind ≠ .enumConstant && isIncludedAt all mainFile origin.place⟩

/-- The nodes from `low` to `high` have been read, and the declarations in them were taken in. -/
structure Reads (all : List Fields) (mainFile : String) (before : Tree) (origins : List Origin)
    (low high : Nat) (after : State) : Prop where
  isAt : after.IsAt all high
  summaries : after.tree.summaries =
    before.summaries ++ origins.map (Origin.summary all mainFile)
  ordered : Ordered all low high origins

section

variable {all : List Fields} {mainFile : String} {before : Tree} {origins later : List Origin}
  {low here place count : Nat} {state after : State} {fields : Fields} {inner nodes : List Node}
  {parent : NodeId} {site : Site}

namespace Reads

theorem nothing (isAt : state.IsAt all here) :
    Reads all mainFile state.tree [] low here state where
  isAt := isAt
  summaries := (List.append_nil _).symm
  ordered := .nil

/-- What is read next starts where the first part ended. -/
theorem andThen (first : Reads all mainFile before origins low here state) (low_le : low ≤ here)
    (second : state.IsAt all here →
      Reads all mainFile state.tree later here (here + count) after) :
    Reads all mainFile before (origins ++ later) low (here + count) after := by
  have second := second first.isAt
  refine ⟨second.isAt, ?_, first.ordered.append second.ordered low_le (Nat.le_add_right _ _)⟩
  rw [second.summaries, first.summaries, List.append_assoc, List.map_append]

theorem skip (reads : Reads all mainFile before origins low here state)
    (stand : Stand all here nodes) :
    Reads all mainFile before origins low (here + (preorderAll nodes).length)
      (state.skip nodes) where
  isAt := reads.isAt.skip stand
  summaries := reads.summaries
  ordered := reads.ordered.weaken (Nat.le_refl _) (Nat.le_add_right _ _)

/-- Where the reader started may be counted from an earlier node. -/
theorem from_le {lower : Nat} (reads : Reads all mainFile before origins low here state)
    (lower_le : lower ≤ low) : Reads all mainFile before origins lower here state where
  isAt := reads.isAt
  summaries := reads.summaries
  ordered := reads.ordered.weaken lower_le (Nat.le_refl _)

theorem mark (reads : Reads all mainFile before origins low here state) (fields : Fields)
    (id : NodeId) : Reads all mainFile before origins low here (state.mark fields id) := by
  unfold State.mark
  split
  · exact ⟨reads.isAt, reads.summaries, reads.ordered⟩
  · exact reads

theorem relink (reads : Reads all mainFile before origins low here state) (fields : Fields)
    (id : NodeId) : Reads all mainFile before origins low here (state.relink fields id) := by
  unfold State.relink
  split
  · exact ⟨reads.isAt, Tree.summaries_setScope.trans reads.summaries, reads.ordered⟩
  · exact reads

theorem push (mainFile : String) (parent : NodeId) (node : Decl.Node) (origin : Origin)
    (isAt : state.IsAt all here) (before_here : origin.place < here)
    (found : all[origin.place]? = some fields) (written : origin.WrittenAs fields)
    (same : node.summary = origin.summary all mainFile) :
    Reads all mainFile state.tree [origin] origin.place here (state.push parent node) where
  isAt := isAt
  summaries := Tree.summaries_push.trans (by rw [same, List.map_singleton])
  ordered := .singleton (Nat.le_refl _) before_here found written

/-- Any declaration but a constant is marked by the file at the place where it is written. -/
theorem declare (parent : NodeId) (node : Decl.Node) (isAt : state.IsAt all here)
    (before_here : place < here) (found : all[place]? = some fields)
    (written : Origin.WrittenAs ⟨place, node.kind, node.name⟩ fields)
    (noConstant : node.kind ≠ .enumConstant)
    (included : node.flags.included = isIncludedAt all mainFile place) :
    Reads all mainFile state.tree [⟨place, node.kind, node.name⟩] place here
      (state.push parent node) := by
  refine push mainFile parent node _ isAt before_here found written ?_
  rw [Decl.Node.summary, Origin.summary, included, decide_eq_true noConstant, Bool.true_and]

end Reads

theorem reads_openRecord {written : Fields} (kind? : Option Kind)
    (isAt : state.IsAt all here) (before_here : place < here) (found : all[place]? = some written)
    (made : Origin.WrittenAs ⟨place, (recordNode site kind? fields).kind, fields.name⟩ written)
    (noConstant : (recordNode site kind? fields).kind ≠ .enumConstant)
    (included : site.included = isIncludedAt all mainFile place) :
    Reads all mainFile state.tree [⟨place, (recordNode site kind? fields).kind, fields.name⟩] place
      here (openRecord state site kind? fields) := by
  have own := Reads.declare site.parent (recordNode site kind? fields) isAt before_here found made
    noConstant included
  exact (own.mark ..).relink ..

theorem reads_alias (kind : Kind) (noConstant : kind ≠ .enumConstant)
    (stand : Stand all (here + 1) inner) (isAt : state.IsAt all (here + 1))
    (found : all[here]? = some fields) (kind_eq : fields.kind = nodeKind kind)
    (included : site.included = isIncludedAt all mainFile here) :
    Reads all mainFile state.tree [⟨here, kind, fields.name⟩] here
      (here + 1 + (preorderAll inner).length)
      ((state.push site.parent (aliasNode site kind fields)).skip inner) := by
  have own := Reads.declare site.parent (aliasNode site kind fields) isAt (Nat.lt_succ_self here)
    found ⟨kind_eq, fun _ => rfl⟩ noConstant included
  exact own.skip stand

theorem reads_readConstants (enum : NodeId) (next : Option Int) (stand : Stand all here nodes)
    (isAt : state.IsAt all here) :
    Reads all mainFile state.tree (constantsIn here nodes) here
      (here + (preorderAll nodes).length) (readConstants enum next state nodes) := by
  induction nodes generalizing next state here with
  | nil => exact .nothing isAt
  | cons node rest induction =>
      obtain ⟨fields, inner⟩ := node
      obtain ⟨found, standInner, standRest⟩ := stand.cons
      have isAt := isAt.next found
      have low_le : here ≤ here + 1 + (preorderAll inner).length := by omega
      rw [readConstants, constantsIn, add_length_preorderAll_cons]
      by_cases constant : fields.kind = "EnumConstantDecl"
      · simp only [if_pos constant]
        have own := Reads.push mainFile enum
          { kind := .enumConstant, name := fields.name
            value? := if inner.isEmpty then next else constantUnder? inner }
          ⟨here, .enumConstant, fields.name⟩ isAt (Nat.lt_succ_self here) found
          ⟨constant, fun _ => rfl⟩ rfl
        have inside := own.skip standInner
        exact inside.andThen low_le (induction _ standRest)
      · simp only [if_neg constant]
        have inside : Reads all mainFile _ [] here _ _ := (Reads.nothing isAt).skip standInner
        exact inside.andThen low_le (induction _ standRest)

theorem reads_readEnum (stand : Stand all (here + 1) inner) (isAt : state.IsAt all (here + 1))
    (found : all[here]? = some fields) (enum : fields.kind = "EnumDecl")
    (included : site.included = isIncludedAt all mainFile here) :
    Reads all mainFile state.tree (⟨here, .enum, fields.name⟩ :: constantsIn (here + 1) inner) here
      (here + 1 + (preorderAll inner).length) (readEnum state site fields inner) := by
  have own := Reads.declare site.parent
    { kind := .enum, name := fields.name, access := site.access
      flags := { included := site.included } }
    isAt (Nat.lt_succ_self here) found ⟨enum, fun _ => rfl⟩ nofun included
  exact own.andThen (Nat.le_succ here) (reads_readConstants _ _ stand)

theorem reads_readFunction (kind : Kind) (noConstant : kind ≠ .enumConstant)
    (stand : Stand all (here + 1) inner) (isAt : state.IsAt all (here + 1))
    (found : all[here]? = some fields) (function : fields.kind = nodeKind kind)
    (included : site.included = isIncludedAt all mainFile here) :
    Reads all mainFile state.tree (functionOrigins here kind fields) here
      (here + 1 + (preorderAll inner).length) (readFunction state site kind fields inner) := by
  unfold readFunction functionOrigins
  by_cases outside : fields.isOutOfLine = true
  · simp only [if_pos outside]
    exact (Reads.nothing isAt).skip stand
  · simp only [if_neg outside]
    have own := Reads.declare site.parent (functionNode site kind fields inner) isAt
      (Nat.lt_succ_self here) found ⟨function, fun _ => rfl⟩ noConstant included
    exact own.skip stand

end

mutual

theorem reads_readAll {all : List Fields} (mainFile : String) {here : Nat} (parent : NodeId)
    (access : Access) (state : State) :
    (nodes : List Node) → Stand all here nodes → state.IsAt all here →
      Reads all mainFile state.tree (originsIn here nodes) here
        (here + (preorderAll nodes).length) (readAll mainFile parent access state nodes)
  | [], _, isAt => by
      rw [readAll, originsIn]
      exact .nothing isAt
  | ⟨fields, inner⟩ :: rest, stand, isAt => by
      obtain ⟨found, standInner, standRest⟩ := stand.cons
      have low_le : here ≤ here + 1 + (preorderAll inner).length := by omega
      have included := isAt.isIncluded found mainFile
      have isAt := isAt.next found
      have here_lt : here < here + 1 := Nat.lt_succ_self here
      rw [readAll, originsIn_cons, add_length_preorderAll_cons]
      simp only [State.follow_follow, included]
      have passed : Reads all mainFile state.tree [] here (here + 1 + (preorderAll inner).length)
          ((state.follow (fields.files ++ fields.rangeFiles)).skip inner) :=
        (Reads.nothing isAt).skip standInner
      by_cases accessSpec : fields.kind = "AccessSpecDecl"
      · rw [if_pos accessSpec, origins_of_passed (.inl accessSpec)]
        exact passed.andThen low_le (reads_readAll mainFile parent _ _ rest standRest)
      rw [if_neg accessSpec]
      refine Reads.andThen ?_ low_le (reads_readAll mainFile parent _ _ rest standRest)
      by_cases implicit : fields.isImplicit = true
      · rw [if_pos implicit, origins_of_passed (.inr implicit)]
        exact passed
      rw [if_neg implicit]
      -- One case for each kind of node, in the order of `readAll`.
      split
      · rename_i kind
        rw [origins_namespace implicit kind]
        have opened := Reads.declare parent
          { kind := .namespaceScope, name := fields.name
            flags := { included := isIncludedAt all mainFile here } }
          isAt here_lt found ⟨kind, fun _ => rfl⟩ nofun rfl
        exact (opened.mark ..).andThen (Nat.le_succ here)
          (reads_readAll mainFile _ _ _ inner standInner)
      · rename_i kind
        rw [origins_around implicit (.inl kind)]
        exact (reads_readAll mainFile parent _ _ inner standInner isAt).from_le (Nat.le_succ here)
      · rename_i kind
        rw [origins_around implicit (.inr kind)]
        exact (reads_readAll mainFile parent _ _ inner standInner isAt).from_le (Nat.le_succ here)
      · rename_i kind
        rw [origins_typedef implicit kind]
        exact reads_alias .typedef nofun standInner isAt found kind rfl
      · rename_i kind
        rw [origins_typeAlias implicit kind]
        exact reads_alias .typeAlias nofun standInner isAt found kind rfl
      · rename_i kind
        by_cases union : fields.tag = "union"
        · rw [origins_union implicit kind union, if_pos union]
          exact passed
        · rw [origins_record implicit kind union, if_neg union]
          have written : Origin.WrittenAs ⟨here, recordKind fields, fields.name⟩ fields :=
            ⟨kind.trans (nodeKind_recordKind fields).symm, fun _ => rfl⟩
          have noConstant := @recordKind_ne .enumConstant rfl fields
          refine Reads.andThen (reads_openRecord none isAt here_lt found written noConstant ?_)
            (Nat.le_succ here) (reads_readAll mainFile _ _ _ inner standInner)
          rfl
      · rename_i kind
        rw [origins_template implicit kind]
        exact reads_readTemplate mainFile _ _ here_lt found kind rfl inner standInner isAt
      · rename_i kind
        rw [origins_enum implicit kind]
        exact reads_readEnum standInner isAt found kind rfl
      · rename_i kind
        rw [origins_method implicit kind]
        exact reads_readFunction .method nofun standInner isAt found kind rfl
      · rename_i kind
        rw [origins_creator implicit kind]
        exact reads_readFunction .creator nofun standInner isAt found kind rfl
      · have own : Node.origins here ⟨fields, inner⟩ = [] := by grind
        rw [own]
        exact passed
termination_by nodes => sizeOf nodes

theorem reads_readTemplate {all : List Fields} (mainFile : String) {here place : Nat}
    {template : Fields} (site : Site) (state : State) (before_here : place < here)
    (found : all[place]? = some template) (isTemplate : template.kind = "ClassTemplateDecl")
    (included : site.included = isIncludedAt all mainFile place) :
    (nodes : List Node) → Stand all here nodes → state.IsAt all here →
      Reads all mainFile state.tree (templateOrigins place here nodes) place
        (here + (preorderAll nodes).length) (readTemplate mainFile site template state nodes)
  | [], _, isAt => by
      rw [readTemplate, templateOrigins]
      exact .nothing isAt
  | ⟨fields, inner⟩ :: rest, stand, isAt => by
      obtain ⟨-, standInner, standRest⟩ := stand.cons
      have isAt := isAt.next stand.cons.1
      have before_next : place < here + 1 := Nat.lt_succ_of_lt before_here
      rw [readTemplate, templateOrigins, add_length_preorderAll_cons]
      by_cases record : fields.kind = "CXXRecordDecl"
      · simp only [if_pos record]
        refine Reads.skip ?_ standRest
        by_cases union : fields.tag = "union"
        · simp only [if_pos union]
          exact (Reads.nothing isAt).skip standInner
        · simp only [if_neg union]
          have written : Origin.WrittenAs ⟨place, .classTemplate, fields.name⟩ template :=
            ⟨isTemplate, fun other => absurd rfl other⟩
          have opened := reads_openRecord (some .classTemplate) isAt before_next found written
            nofun included
          exact (opened.andThen (Nat.le_of_lt before_next)
            (reads_readAll mainFile _ _ _ inner standInner)).mark template _
      · simp only [if_neg record]
        have before_rest : place < here + 1 + (preorderAll inner).length := by omega
        exact reads_readTemplate mainFile site _ before_rest found isTemplate included rest
          standRest (isAt.skip standInner)
termination_by nodes => sizeOf nodes

end

/-! ## The declarations of a document -/

/-- A declaration is what its origin says. Unless it is a constant, it is marked exactly if a file
was named by the location of its node or before, and the last of these is not the header. -/
structure Origin.Yields (nodes : List Json.Value) (mainFile : String) (origin : Origin)
    (node : Decl.Node) : Prop where
  kind : node.kind = origin.kind
  name : node.name = origin.name
  included_iff : origin.kind ≠ .enumConstant → (node.flags.included = true ↔
    ∃ file, currentFile? nodes origin.place = some file ∧ Path.same file mainFile = false)

theorem Origin.yields_of_summary_eq {nodes : List Json.Value} {mainFile : String} {origin : Origin}
    {node : Decl.Node}
    (same : node.summary = origin.summary (nodes.map Fields.ofValue) mainFile) :
    origin.Yields nodes mainFile node where
  kind := congrArg Summary.kind same
  name := congrArg Summary.name same
  included_iff := by
    intro noConstant
    have included : node.flags.included = (decide (origin.kind ≠ .enumConstant) &&
        isIncludedAt (nodes.map Fields.ofValue) mainFile origin.place) :=
      congrArg Summary.included same
    rw [included, decide_eq_true noConstant, Bool.true_and, isIncludedAt, fileAt?_map_ofValue,
      Option.any_eq_true]
    simp

/-- After the header alone there come the declarations with the given origins. -/
theorem Reads.exists_yields {nodes : List Json.Value} {mainFile : String} {origins : List Origin}
    {low here number : Nat} {after : State} {origin : Origin}
    (reads : Reads (nodes.map Fields.ofValue) mainFile .empty origins low here after)
    (found : origins[number]? = some origin) :
    ∃ node, after.tree.node? (number + 1) = some node ∧ origin.Yields nodes mainFile node := by
  have listed : (after.tree.node? (number + 1)).map Decl.Node.summary =
      some (origin.summary (nodes.map Fields.ofValue) mainFile) := by
    rw [← Tree.getElem?_summaries, reads.summaries]
    show (List.map _ _)[number]? = _
    rw [List.getElem?_map, found, Option.map_some]
  obtain ⟨node, node_found, same⟩ := Option.map_eq_some_iff.mp listed
  exact ⟨node, node_found, Origin.yields_of_summary_eq same⟩

/-- Every node of a document is read, once and in its order. -/
theorem reads_treeOf {document : Json.Value} (mainFile : String)
    (isUnit : document.textField? "kind" = some "TranslationUnitDecl") :
    ∃ after : State, treeOf document mainFile = .ok after.tree ∧
      Reads ((writtenNodes document).map Fields.ofValue) mainFile .empty (originsOf document) 1
        (writtenNodes document).length after := by
  let inner := (innerValues document).map Node.ofValue
  have root : Node.ofValue document = ⟨Fields.ofValue document, inner⟩ := ofValue_eq document
  have nodes : (writtenNodes document).map Fields.ofValue =
      Fields.ofValue document :: preorderAll inner := by
    rw [← preorder_ofValue, root, Node.preorder]
  have kind : (Fields.ofValue document).kind = "TranslationUnitDecl" := by
    simp [Fields.ofValue, isUnit]
  have origins : originsOf document = originsIn 1 inner := by
    rw [originsOf, root, Node.inner]
  have length : (writtenNodes document).length = 1 + (preorderAll inner).length := by
    rw [← List.length_map (f := Fields.ofValue), nodes, List.length_cons, Nat.add_comm]
  rw [nodes, origins, length]
  have stand : Stand (Fields.ofValue document :: preorderAll inner) 1 inner := List.prefix_rfl
  have atRoot : State.IsAt (Fields.ofValue document :: preorderAll inner) 0 { tree := .empty } :=
    rfl
  have start : Reads _ mainFile .empty [] 1 1 _ :=
    (Reads.nothing (atRoot.next rfl)).mark (Fields.ofValue document) Tree.root
  refine ⟨_, ?_, start.andThen (Nat.le_refl 1)
    (reads_readAll mainFile Tree.root .unspecified _ inner stand)⟩
  rw [treeOf, root, treeOfNode, Node.fields, Node.inner, if_neg (not_not.mpr kind)]

/-- The declarations of a syntax tree are those in its document, by number, and each is marked by
the files named before it, whatever nodes name them. -/
theorem yields_of_treeOf {document : Json.Value} (mainFile : String)
    (isUnit : document.textField? "kind" = some "TranslationUnitDecl") :
    ∃ tree, treeOf document mainFile = .ok tree ∧
      tree.size = (originsOf document).length + 1 ∧
      (originsOf document).Pairwise (fun first second => first.place < second.place) ∧
      ∀ number origin, (originsOf document)[number]? = some origin →
        (∃ value, (writtenNodes document)[origin.place]? = some value ∧
          origin.WrittenAs (Fields.ofValue value)) ∧
        ∃ node, tree.node? (number + 1) = some node ∧
          origin.Yields (writtenNodes document) mainFile node := by
  obtain ⟨after, read, reads⟩ := reads_treeOf mainFile isUnit
  refine ⟨after.tree, read, ?_, reads.ordered.increasing, ?_⟩
  · have length := congrArg List.length reads.summaries
    simpa [Tree.size, Tree.empty, Nat.add_comm] using length
  · intro number origin found
    refine ⟨?_, reads.exists_yields found⟩
    obtain ⟨fields, place, written⟩ :=
      reads.ordered.written origin (List.mem_of_getElem? found)
    rw [List.getElem?_map] at place
    obtain ⟨value, value_found, rfl⟩ := Option.map_eq_some_iff.mp place
    exact ⟨value, value_found, written⟩

/-- A helper function whose body comes from another file, a class template after it, and a macro
that leads back to the header. -/
def helperDocument : Json.Value :=
  let named (file : String) : Json.Value := .object [("file", .string file)]
  .object [("kind", .string "TranslationUnitDecl"), ("inner", .array [
    .object [("kind", .string "FunctionDecl"), ("loc", named "geo.h"),
      ("inner", .array [.object [("kind", .string "CompoundStmt"),
        ("range", .object [("begin", named "other.h"), ("end", .object [])])]])],
    .object [("kind", .string "ClassTemplateDecl"), ("name", .string "List"),
      ("loc", .object []),
      ("inner", .array [.object [("kind", .string "CXXRecordDecl"), ("name", .string "List"),
        ("loc", .object [("spellingLoc", named "macros.h"), ("expansionLoc", named "geo.h")]),
        ("inner", .array [.object [("kind", .string "CXXMethodDecl"),
          ("name", .string "First")]])]])]])]

theorem helperDocument_yields :
    helperDocument.textField? "kind" = some "TranslationUnitDecl" ∧
      ∃ tree list first, treeOf helperDocument "geo.h" = .ok tree ∧
        tree.node? 1 = some list ∧ list.name = "List" ∧ list.flags.included = true ∧
        tree.node? 2 = some first ∧ first.name = "First" ∧ first.flags.included = false := by
  have isUnit : helperDocument.textField? "kind" = some "TranslationUnitDecl" := by decide
  obtain ⟨tree, read, -, -, yields⟩ := yields_of_treeOf "geo.h" isUnit
  have current (place : Nat) : currentFile? (writtenNodes helperDocument) place =
      fileAt? (Node.ofValue helperDocument).preorder place := by
    rw [preorder_ofValue, fileAt?_map_ofValue]
  obtain ⟨-, list, list_found, isList⟩ := yields 0 ⟨3, .classTemplate, "List"⟩ (by decide)
  obtain ⟨-, first, first_found, isFirst⟩ := yields 1 ⟨5, .method, "First"⟩ (by decide)
  refine ⟨isUnit, tree, list, first, read, list_found, isList.name, ?_, first_found,
    isFirst.name, ?_⟩
  · refine (isList.included_iff nofun).mpr ⟨"other.h", ?_, by decide +kernel⟩
    rw [current]
    decide +kernel
  · refine Bool.eq_false_iff.mpr fun included => ?_
    obtain ⟨file, last, apart⟩ := (isFirst.included_iff nofun).mp included
    have header : currentFile? (writtenNodes helperDocument) 5 = some "geo.h" := by
      rw [current]
      decide +kernel
    cases last.symm.trans header
    revert apart
    decide +kernel

end Clang
end HeaderBinding
