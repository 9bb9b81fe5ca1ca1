import HeaderBinding.Api.Scan
import HeaderBinding.Proofs.Decl.Tree
import Mathlib.Data.List.Induction

/-!
# Where classes come from

Every class of a set of headers is made of one declaration: a site. Of the sites whose classes have
one flat identifier a single class is kept, and it has the qualified name of the last site.
-/

namespace HeaderBinding
namespace Api

open Decl (NodeId Node Tree)

/-- A declaration of which a class is made. -/
structure Site where
  tree : Tree
  id : NodeId
  node : Node
  /-- The classes that the declaration is written in, the innermost first. -/
  around : List Node
  deriving DecidableEq

namespace Site

/-- The name of the class. -/
def qualifiedName (site : Site) : String :=
  site.tree.qualifiedName site.id

/-- The identifier under which the class is kept. -/
def flatName (site : Site) : String :=
  Identifier.flat site.qualifiedName

/-- A class around the declaration is a template. -/
def isInTemplate (site : Site) : Bool :=
  site.around.any fun outer => outer.kind = .classTemplate

/-- The class that is made of the declaration. -/
def model (registry : Registry) (site : Site) : Class :=
  classOf registry site.tree site.isInTemplate site.id site.node

theorem qualifiedName_model (registry : Registry) (site : Site) :
    (site.model registry).qualifiedName = site.qualifiedName :=
  rfl

theorem flatName_model (registry : Registry) (site : Site) :
    (site.model registry).flatName = site.flatName :=
  rfl

end Site

/-- A declaration of a class and those of the public classes inside it. -/
def sitesFrom (tree : Tree) (around : List Node) (fuel : Nat) (id : NodeId) (node : Node) :
    List Site :=
  match fuel with
  | 0 => []
  | fuel + 1 =>
      let nested := (tree.members id).filter fun (_, member) => member.isPublicRecord
      ⟨tree, id, node, around⟩ :: nested.flatMap fun (child, member) =>
        sitesFrom tree (node :: around) fuel child member

/-- The declarations of a header of which classes are made. -/
def sitesOf (tree : Tree) : List Site :=
  ((tree.entries Node.holdsClasses).filter fun (_, node) => node.isCandidate).flatMap
    fun (id, node) => sitesFrom tree [] tree.size id node

theorem classesFrom_eq_map (registry : Registry) (tree : Tree) (around : List Node) (fuel : Nat)
    (id : NodeId) (node : Node) :
    classesFrom registry tree (around.any fun outer => outer.kind = .classTemplate) fuel id node =
      (sitesFrom tree around fuel id node).map (Site.model registry) := by
  induction fuel generalizing around id node with
  | zero => rfl
  | succ fuel induction =>
      have inner (child : NodeId) (member : Node) := induction (node :: around) child member
      simp only [List.any_cons, Bool.or_comm (decide (node.kind = .classTemplate))] at inner
      simp only [classesFrom, sitesFrom, classOf, List.map_cons, List.map_flatMap, inner]
      rfl

theorem classesOf_eq_map (registry : Registry) (tree : Tree) :
    classesOf registry tree = (sitesOf tree).map (Site.model registry) := by
  have outermost (item : NodeId × Node) :=
    classesFrom_eq_map registry tree [] tree.size item.1 item.2
  simp only [List.any_nil] at outermost
  simp only [classesOf, sitesOf, List.map_flatMap, outermost]

/-- The classes of all sites of the headers are kept one after the other. -/
theorem scan_eq_foldl (trees : List Tree) (registry : Registry) :
    scan trees registry =
      ((trees.flatMap sitesOf).map (Site.model registry)).foldl keep ∅ := by
  have taken (api : Api) (tree : Tree) : addTree registry api tree =
      ((sitesOf tree).map (Site.model registry)).foldl keep api := by
    rw [addTree, classesOf_eq_map]
  have all (api : Api) : trees.foldl (addTree registry) api =
      ((trees.flatMap sitesOf).map (Site.model registry)).foldl keep api := by
    induction trees generalizing api with
    | nil => rfl
    | cons tree trees induction =>
        rw [List.foldl_cons, taken, induction, List.flatMap_cons, List.map_append,
          List.foldl_append]
  exact all ∅

/-- Below a declaration of a class only public classes are looked into. -/
theorem isPublicRecord_of_mem_sitesFrom {tree : Tree} {around : List Node} {fuel : Nat}
    {id : NodeId} {node : Node} {site : Site} (member : site ∈ sitesFrom tree around fuel id node) :
    site = ⟨tree, id, node, around⟩ ∨
      site.tree = tree ∧ tree.node? site.id = some site.node ∧ site.node.isPublicRecord := by
  induction fuel generalizing around id node with
  | zero => simp [sitesFrom] at member
  | succ fuel induction =>
      rcases List.mem_cons.mp member with rfl | deeper
      · exact .inl rfl
      · obtain ⟨⟨child, inner⟩, nested, deeper⟩ := List.mem_flatMap.mp deeper
        obtain ⟨inner_mem, isPublic⟩ := List.mem_filter.mp nested
        rcases induction deeper with rfl | below
        · exact .inr ⟨rfl, (Tree.mem_filterMap_node?.mp inner_mem).2, isPublic⟩
        · exact .inr below

/-- A class is made of a declaration among namespaces or of a public class inside another one. -/
theorem mem_sitesOf_cases {tree : Tree} {site : Site} (member : site ∈ sitesOf tree) :
    site.tree = tree ∧ tree.node? site.id = some site.node ∧ site.node.kind.isRecord ∧
      ((site.id, site.node) ∈ tree.entries Node.holdsClasses ∨ site.node.access = .isPublic) := by
  obtain ⟨⟨id, node⟩, outermost, below⟩ := List.mem_flatMap.mp member
  obtain ⟨entry, candidate⟩ := List.mem_filter.mp outermost
  rcases isPublicRecord_of_mem_sitesFrom below with rfl | ⟨same, found, isPublic⟩
  · simp only [Node.isCandidate, Bool.and_eq_true] at candidate
    exact ⟨rfl, (Tree.mem_filterMap_node?.mp entry).2, candidate.1.1, .inl entry⟩
  · simp only [Node.isPublicRecord, Bool.and_eq_true, decide_eq_true_eq] at isPublic
    exact ⟨same, found, isPublic.1.1, .inr isPublic.2⟩

theorem mem_sitesOf_tree {trees : List Tree} {site : Site}
    (member : site ∈ trees.flatMap sitesOf) : site.tree ∈ trees ∧ site ∈ sitesOf site.tree := by
  obtain ⟨tree, listed, in_tree⟩ := List.mem_flatMap.mp member
  obtain ⟨rfl, -⟩ := mem_sitesOf_cases in_tree
  exact ⟨listed, in_tree⟩

/-! ## Classes that are kept -/

theorem getElem?_keep_of_ne {api : Api} {model : Class} {flat : String}
    (other : model.flatName ≠ flat) : (api.keep model)[flat]? = api[flat]? := by
  simp [keep, Std.ExtTreeMap.getElem?_alter, other]

/-- What is kept of a class and the one that was kept before it: the class itself, unless only the
other declaration of it has a body. -/
def Class.after (known? : Option Class) (model : Class) : Class :=
  match known? with
  | none => model
  | some known =>
      if known.qualifiedName = model.qualifiedName ∧ known.isDefinition ∧ ¬model.isDefinition then
        known
      else model

theorem getElem?_keep_self (api : Api) (model : Class) :
    (api.keep model)[model.flatName]? = some (model.after api[model.flatName]?) := by
  rw [keep, Std.ExtTreeMap.getElem?_alter_self]
  cases api[model.flatName]? with
  | none => rfl
  | some known => exact (apply_ite some ..).symm

/-- What is kept under the identifier of a class has its name: it is the class itself, or one that
was there before. -/
theorem exists_getElem?_keep (api : Api) (model : Class) :
    ∃ kept, (api.keep model)[model.flatName]? = some kept ∧
      kept.qualifiedName = model.qualifiedName ∧
        (kept = model ∨ api[model.flatName]? = some kept) := by
  refine ⟨_, getElem?_keep_self api model, ?_⟩
  cases api[model.flatName]? with
  | none => exact ⟨rfl, .inl rfl⟩
  | some known =>
      simp only [Class.after]
      split
      · rename_i stays
        exact ⟨stays.1, .inr rfl⟩
      · exact ⟨rfl, .inl rfl⟩

theorem mem_of_getElem?_foldl_keep {models : List Class} {flat : String} {kept : Class}
    (found : (models.foldl keep ∅)[flat]? = some kept) : kept ∈ models ∧ kept.flatName = flat := by
  induction models using List.reverseRecOn with
  | nil => simp at found
  | append_singleton models model induction =>
      rw [List.foldl_append, List.foldl_cons, List.foldl_nil] at found
      by_cases own : model.flatName = flat
      · subst own
        obtain ⟨now, now_found, -, rfl | before⟩ :=
          exists_getElem?_keep (models.foldl keep ∅) model
        · obtain rfl := Option.some.inj (found.symm.trans now_found)
          exact ⟨by simp, rfl⟩
        · obtain rfl := Option.some.inj (found.symm.trans now_found)
          obtain ⟨member, flat_eq⟩ := induction before
          exact ⟨List.mem_append_left _ member, flat_eq⟩
      · rw [getElem?_keep_of_ne own] at found
        obtain ⟨member, flat_eq⟩ := induction found
        exact ⟨List.mem_append_left _ member, flat_eq⟩

/-- The class that is kept under an identifier has the name of the last one. -/
theorem map_qualifiedName_getElem?_foldl_keep (models : List Class) (flat : String) :
    ((models.foldl keep ∅)[flat]?).map Class.qualifiedName =
      ((models.filter fun model => model.flatName == flat).getLast?).map Class.qualifiedName := by
  induction models using List.reverseRecOn with
  | nil => simp
  | append_singleton models model induction =>
      rw [List.foldl_append, List.foldl_cons, List.foldl_nil, List.filter_append]
      by_cases own : model.flatName = flat
      · subst own
        obtain ⟨kept, found, name_eq, -⟩ := exists_getElem?_keep (models.foldl keep ∅) model
        simp [found, name_eq]
      · simp [getElem?_keep_of_ne own, own, induction]

/-! ## Classes of the headers -/

/-- The name of the last class of the headers with a flat identifier. -/
def lastName? (trees : List Tree) (flat : String) : Option String :=
  (((trees.flatMap sitesOf).filter fun site => site.flatName == flat).getLast?).map
    Site.qualifiedName

section

variable {trees : List Tree} {registry : Registry}

theorem exists_site_of_mem_classes {model : Class}
    (listed : model ∈ (scan trees registry).classes) :
    ∃ site ∈ trees.flatMap sitesOf, site.model registry = model := by
  obtain ⟨flat, found⟩ := (NameMap.mem_values_iff _ _).mp listed
  rw [scan_eq_foldl] at found
  exact List.mem_map.mp (mem_of_getElem?_foldl_keep found).1

theorem map_qualifiedName_getElem?_scan (flat : String) :
    ((scan trees registry)[flat]?).map Class.qualifiedName = lastName? trees flat := by
  have names : Class.qualifiedName ∘ Site.model registry = Site.qualifiedName := by
    funext site
    exact site.qualifiedName_model registry
  rw [scan_eq_foldl, map_qualifiedName_getElem?_foldl_keep, List.filter_map, List.getLast?_map,
    Option.map_map, names]
  simp only [Function.comp_def, Site.flatName_model, lastName?]

/-- The headers have a class with a name if and only if it is the name of the last one with its flat
identifier. -/
theorem exists_mem_classes_iff (name : String) :
    (∃ model ∈ (scan trees registry).classes, model.qualifiedName = name) ↔
      lastName? trees (Identifier.flat name) = some name := by
  rw [← @map_qualifiedName_getElem?_scan trees registry, Option.map_eq_some_iff]
  constructor
  · rintro ⟨model, listed, rfl⟩
    obtain ⟨flat, found⟩ := (NameMap.mem_values_iff _ _).mp listed
    have flat_eq : model.flatName = flat := by
      rw [scan_eq_foldl] at found
      exact (mem_of_getElem?_foldl_keep found).2
    subst flat_eq
    exact ⟨model, found, rfl⟩
  · rintro ⟨model, found, name_eq⟩
    exact ⟨model, (NameMap.mem_values_iff _ _).mpr ⟨_, found⟩, name_eq⟩

theorem exists_lastName?_of_mem {site : Site} (member : site ∈ trees.flatMap sitesOf) :
    ∃ name, lastName? trees site.flatName = some name := by
  have listed : site ∈
      (trees.flatMap sitesOf).filter fun other => other.flatName == site.flatName :=
    List.mem_filter.mpr ⟨member, by simp⟩
  obtain ⟨last, found⟩ := Option.isSome_iff_exists.mp
    (List.getLast?_isSome.mpr (List.ne_nil_of_mem listed))
  exact ⟨last.qualifiedName, by rw [lastName?, found, Option.map_some]⟩

theorem exists_site_of_lastName? {flat name : String}
    (last : lastName? trees flat = some name) :
    ∃ site ∈ trees.flatMap sitesOf, site.qualifiedName = name := by
  obtain ⟨site, found, name_eq⟩ := Option.map_eq_some_iff.mp last
  exact ⟨site, (List.mem_filter.mp (List.mem_of_getLast? found)).1, name_eq⟩

end

end Api
end HeaderBinding
