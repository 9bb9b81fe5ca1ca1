import HeaderBinding.Proofs.Api.Site
import HeaderBinding.Proofs.Wrapper.Incomplete

/-!
# Classes inside class templates

A class that belongs to a class template cannot be named without the arguments of the template, so
nothing may be done with it. Whether a class lies inside a template is read off the classes that it
is written in. A member of a template that is defined out of line is written in none of them, and is
taken for a class like any other.
-/

namespace HeaderBinding

namespace Decl

/-- The declaration is a class template, or the scope that it belongs to belongs to one. -/
inductive Tree.BelongsToTemplate (tree : Tree) : NodeId → Prop where
  | template {id : NodeId} {node : Node} (found : tree.node? id = some node)
      (kind : node.kind = .classTemplate) : Tree.BelongsToTemplate tree id
  | member {id outer : NodeId} (scope : tree.scope? id = some outer)
      (belongs : Tree.BelongsToTemplate tree outer) : Tree.BelongsToTemplate tree id

/-- The declaration is a class template or is written inside one. -/
inductive Tree.WrittenInTemplate (tree : Tree) : NodeId → Prop where
  | template {id : NodeId} {node : Node} (found : tree.node? id = some node)
      (kind : node.kind = .classTemplate) : Tree.WrittenInTemplate tree id
  | inside {id outer : NodeId} (written : id ∈ tree.children outer)
      (around : Tree.WrittenInTemplate tree outer) : Tree.WrittenInTemplate tree id

section

variable {tree : Tree} {id child : NodeId} {node : Node}

theorem Tree.WellFormed.writtenInTemplate_iff (wf : tree.WellFormed)
    (written : child ∈ tree.children id) (found : tree.node? child = some node) :
    tree.WrittenInTemplate child ↔ tree.WrittenInTemplate id ∨ node.kind = .classTemplate := by
  constructor
  · rintro (⟨same, kind⟩ | ⟨also, around⟩)
    · obtain rfl := Option.some.inj (found.symm.trans same)
      exact .inr kind
    · obtain rfl := wf.parent_unique written also
      exact .inl around
  · rintro (around | kind)
    · exact .inside written around
    · exact .template found kind

theorem Tree.WellFormed.not_writtenInTemplate_root (wf : tree.WellFormed) :
    ¬tree.WrittenInTemplate root := by
  rintro (⟨found, kind⟩ | ⟨written, -⟩)
  · have header := wf.kind_root
    simp [found, kind] at header
  · exact absurd (wf.child_pos written) (Nat.lt_irrefl _)

/-- What is found without looking into classes is in a template only if it is one. -/
theorem Tree.WellFormed.writtenInTemplate_of_mem_below (wf : tree.WellFormed) {fuel : Nat}
    (outside : ¬tree.WrittenInTemplate id) (met : child ∈ tree.below Node.holdsClasses fuel id)
    (found : tree.node? child = some node) :
    tree.WrittenInTemplate child ↔ node.kind = .classTemplate := by
  induction fuel generalizing id with
  | zero => simp [Tree.below] at met
  | succ fuel induction =>
      obtain ⟨next, written, met⟩ := List.mem_flatMap.mp met
      rcases List.mem_cons.mp met with rfl | deeper
      · rw [wf.writtenInTemplate_iff written found, or_iff_right outside]
      · split at deeper
        · rename_i enters
          obtain ⟨outer, outer_found, holds⟩ := (Option.any_eq_true ..).mp enters
          refine induction (fun inside => ?_) deeper
          rcases (wf.writtenInTemplate_iff written outer_found).mp inside with around | kind
          · exact outside around
          · simp [Node.holdsClasses, kind] at holds
        · simp at deeper

end

end Decl

namespace Wrapper

/-- No function of the wrapper calls a wrapped function, or creates or deletes an object. -/
structure Class.CallsNothing (wrapper : Class) : Prop where
  methods : ∀ method ∈ wrapper.methods, ¬method.CallsNative
  destroy : ∀ stmt ∈ flattenAll wrapper.destroy, ¬stmt.callsNative

theorem callsNothing_ofClass (scope : TypeScope) (family base : String) {model : Api.Class}
    (fixed : model.isForwardable = false) : (ofClass scope family base model).CallsNothing where
  methods := by
    rw [forall_mem_methods_ofClass scope family base model fun method => ¬method.CallsNative]
    intro member _
    have cannot : ¬CanCall scope model member.params := by
      rintro ⟨forwardable, -⟩
      simp [fixed] at forwardable
    exact (Member.isUnavailable_wrapped cannot).isSpared.calls_nothing
  destroy := by
    simp [ofClass, destroyBody, fixed]

end Wrapper

namespace Api

open Decl (Flags NodeId Node Tree)

/-- The class is a template, or a class around its declaration is one. -/
def Site.isTemplate (site : Site) : Bool :=
  site.isInTemplate || site.node.kind = .classTemplate

/-- The class is known to be a template or inside one, and nothing is done with it. -/
structure Class.IsInert (model : Class) : Prop where
  isTemplate : model.isTemplate
  not_isForwardable : model.isForwardable = false
  callsNothing : ∀ (scope : TypeScope) (family base : String),
    (Wrapper.ofClass scope family base model).CallsNothing

theorem isInert_iff (model : Class) : model.IsInert ↔ model.isTemplate := by
  refine ⟨Class.IsInert.isTemplate, fun isTemplate => ?_⟩
  have fixed : model.isForwardable = false := by
    simp [Class.isForwardable, isTemplate]
  exact ⟨isTemplate, fixed, fun scope family base =>
    Wrapper.callsNothing_ofClass scope family base fixed⟩

theorem writtenInTemplate_of_mem_sitesFrom {tree : Tree} (wf : tree.WellFormed)
    {around : List Node} {fuel : Nat} {id : NodeId} {node : Node} {site : Site}
    (outermost : tree.WrittenInTemplate id ↔ (Site.mk tree id node around).isTemplate)
    (member : site ∈ sitesFrom tree around fuel id node) :
    tree.WrittenInTemplate site.id ↔ site.isTemplate := by
  induction fuel generalizing around id node with
  | zero => simp [sitesFrom] at member
  | succ fuel induction =>
      rcases List.mem_cons.mp member with rfl | deeper
      · exact outermost
      · obtain ⟨⟨child, inner⟩, nested, deeper⟩ := List.mem_flatMap.mp deeper
        obtain ⟨written, found⟩ := Tree.mem_filterMap_node?.mp (List.mem_filter.mp nested).1
        refine induction ?_ deeper
        rw [wf.writtenInTemplate_iff written found, outermost]
        simp [Site.isTemplate, Site.isInTemplate, or_comm]

theorem writtenInTemplate_of_mem_sitesOf {tree : Tree} (wf : tree.WellFormed) {site : Site}
    (member : site ∈ sitesOf tree) : tree.WrittenInTemplate site.id ↔ site.isTemplate := by
  obtain ⟨⟨id, node⟩, outermost, below⟩ := List.mem_flatMap.mp member
  obtain ⟨met, found⟩ := Tree.mem_filterMap_node?.mp (List.mem_filter.mp outermost).1
  refine writtenInTemplate_of_mem_sitesFrom wf ?_ below
  rw [wf.writtenInTemplate_of_mem_below wf.not_writtenInTemplate_root met found]
  simp [Site.isTemplate, Site.isInTemplate]

theorem isInert_model_iff {trees : List Tree} (grown : ∀ tree ∈ trees, tree.Grown)
    (registry : Registry) {site : Site} (member : site ∈ trees.flatMap sitesOf) :
    (site.model registry).IsInert ↔ site.tree.WrittenInTemplate site.id := by
  obtain ⟨listed, in_tree⟩ := mem_sitesOf_tree member
  rw [isInert_iff, writtenInTemplate_of_mem_sitesOf (grown _ listed).wellFormed in_tree]
  rfl

/-- Every class of the headers is made of a declaration, and that nothing is done with it if it
belongs to a class template, is true if and only if it is then also written inside a template. -/
theorem inert_of_belongsToTemplate_iff {trees : List Tree} (grown : ∀ tree ∈ trees, tree.Grown)
    (registry : Registry) :
    (∀ model ∈ (scan trees registry).classes,
        ∃ site ∈ trees.flatMap sitesOf, site.model registry = model) ∧
      ∀ site ∈ trees.flatMap sitesOf,
        ((site.tree.BelongsToTemplate site.id → (site.model registry).IsInert) ↔
          (site.tree.BelongsToTemplate site.id → site.tree.WrittenInTemplate site.id)) := by
  refine ⟨fun model listed => exists_site_of_mem_classes listed, fun site member => ?_⟩
  exact imp_congr_right fun _ => isInert_model_iff grown registry member

/-- A class template with two member classes, of which the second is defined out of line. -/
def arrayTree : Tree :=
  let defined : Flags := { definition := true }
  let array := Tree.empty.push 0 { kind := .classTemplate, name := "Array", flags := defined }
  let cursor := array.push 1
    { kind := .struct, name := "Cursor", access := .isPublic, flags := defined }
  let iterator := cursor.push 1 { kind := .struct, name := "Iterator", access := .isPublic }
  (iterator.push 0 { kind := .struct, name := "Iterator", flags := defined }).setScope 4 1

theorem grown_arrayTree : arrayTree.Grown := by
  apply Tree.Grows.setScope
  iterate 4 refine Tree.Grows.push ?_ (by decide) _
  exact .refl

/-- Member `number` of the class template, written inside `around`. -/
def arrayMember (number : NodeId) (around : List NodeId) : Site where
  tree := arrayTree
  id := number
  node := (arrayTree.node? number).getD default
  around := around.filterMap arrayTree.node?

theorem belongsToTemplate_arrayMember (number : NodeId) (around : List NodeId)
    (scope : arrayTree.scope? number = some 1) :
    (arrayMember number around).tree.BelongsToTemplate number :=
  .member scope (.template rfl rfl)

/-- Nothing is done with the member that is written inside the template. -/
theorem isInert_cursor :
    (arrayMember 2 [1]).qualifiedName = "Array::Cursor" ∧
      ((arrayMember 2 [1]).model (Registry.discover [arrayTree] ∅)).IsInert := by
  have grown : ∀ tree ∈ [arrayTree], tree.Grown := by
    simpa using grown_arrayTree
  have listed : arrayMember 2 [1] ∈ [arrayTree].flatMap sitesOf := by
    decide +kernel
  have belongs := belongsToTemplate_arrayMember 2 [1] rfl
  have written : arrayTree.WrittenInTemplate 2 :=
    .inside (show 2 ∈ arrayTree.children 1 by decide) (.template rfl rfl)
  refine ⟨by decide +kernel, ?_⟩
  exact ((inert_of_belongsToTemplate_iff grown _).2 _ listed).mpr (fun _ => written) belongs

/-- The member that is defined out of line is taken for a class like any other, and its wrapper
deletes it. -/
theorem not_isInert_iterator :
    arrayMember 4 [] ∈ [arrayTree].flatMap sitesOf ∧
      (arrayMember 4 []).qualifiedName = "Array::Iterator" ∧
      (arrayMember 4 []).tree.BelongsToTemplate 4 ∧
      let registry := Registry.discover [arrayTree] ∅
      let model := (arrayMember 4 []).model registry
      let wrapper := Wrapper.ofClass ⟨registry, ∅⟩ "" "" model
      model ∈ (scan [arrayTree] registry).classes ∧ ¬model.IsInert ∧
        ∃ stmt ∈ Wrapper.flattenAll wrapper.destroy, stmt.callsNative := by
  refine ⟨by decide +kernel, by decide +kernel, belongsToTemplate_arrayMember 4 [] rfl,
    by decide +kernel, ?_, by decide +kernel⟩
  rw [isInert_iff]
  decide +kernel

end Api
end HeaderBinding
