import HeaderBinding.Proofs.Decl.Tree
import Mathlib.Data.List.Nodup
import Mathlib.Data.List.Perm.Subperm
import Mathlib.Logic.Relation

/-!
# Scopes

A declaration belongs to a scope, that one to another, and so on up to the header. Scopes can be set
at will and may form circles. A walk along them is cut off only there: if there is no circle, the
qualified name of a declaration is made of the names of all scopes around it.
-/

namespace HeaderBinding
namespace Decl
namespace Tree

variable {tree : Tree} {id inner outer parent scope fuel : Nat} {node : Node} {name : String}
  {ids others : List NodeId}

/-! ## Scopes while the tree grows -/

theorem scope?_eq_join (tree : Tree) (id : NodeId) :
    tree.scope? id = ((tree.node? id).map Node.scope?).join := by
  rw [scope?]
  cases tree.node? id <;> rfl

theorem scope?_push (id : NodeId) : (tree.push parent node).scope? id =
    if id = tree.size then some parent else tree.scope? id := by
  rw [scope?_eq_join, node?_push]
  by_cases new : id = tree.size
  · rw [if_pos new, if_pos new]
    split <;> rfl
  · rw [if_neg new, scope?_eq_join]
    by_cases own : parent = id
    · simp only [if_neg new, if_pos own, Option.map_map]
      rfl
    · simp [new, own]

theorem scope?_setScope (other : NodeId) : (tree.setScope id scope).scope? other =
    if other = id ∧ id < tree.size ∧ id ≠ scope ∧ scope < tree.size then some scope
    else tree.scope? other := by
  unfold setScope
  by_cases ignored : id = scope ∨ tree.size ≤ scope
  · rw [if_pos ignored, if_neg]
    rintro ⟨-, -, differs, known⟩
    exact ignored.elim differs (Nat.not_le_of_lt known)
  · obtain ⟨differs, known⟩ := not_or.mp ignored
    rw [if_neg ignored, scope?_eq_join, node?, Array.getElem?_modify]
    by_cases same : id = other
    · subst same
      by_cases inside : id < tree.size
      · obtain ⟨node, found⟩ : ∃ node, tree.nodes[id]? = some node :=
          ⟨_, Array.getElem?_eq_getElem inside⟩
        simp [found, inside, differs, Nat.lt_of_not_le known]
      · have missing : tree.nodes[id]? = none := Array.getElem?_eq_none (Nat.le_of_not_lt inside)
        simp [missing, inside, scope?, node?]
    · rw [if_neg same, if_neg fun set => same set.1.symm, scope?_eq_join, node?]

@[simp]
theorem scope?_rename (other : NodeId) :
    (tree.rename id name).scope? other = tree.scope? other := by
  rw [scope?_eq_join, map_node?_rename Node.scope? fun _ _ => rfl, ← scope?_eq_join]

/-- Scopes are declarations of the header, and only the header itself belongs to nothing. -/
structure ScopesInside (tree : Tree) : Prop where
  lt_size : ∀ {id scope}, tree.scope? id = some scope → scope < tree.size
  eq_root : ∀ {id}, id < tree.size → tree.scope? id = none → id = root

theorem Grown.scopesInside (grown : tree.Grown) : tree.ScopesInside := by
  induction grown with
  | refl =>
      constructor
      · intro id scope found
        cases id <;> simp [scope?, node?, Tree.empty] at found
      · intro id known _
        exact Nat.lt_one_iff.mp known
  | @push tree parent _ inside node scopes =>
      constructor
      · intro id scope found
        rw [scope?_push] at found
        rw [size_push]
        split at found
        · obtain rfl := Option.some.inj found
          exact Nat.lt_succ_of_le inside
        · exact Nat.lt_succ_of_lt (scopes.lt_size found)
      · intro id known missing
        rw [scope?_push] at missing
        rw [size_push] at known
        split at missing
        · cases missing
        · rename_i old
          exact scopes.eq_root (Nat.lt_of_le_of_ne (Nat.le_of_lt_succ known) old) missing
  | @setScope tree _ id scope scopes =>
      constructor
      · intro other found_scope found
        rw [scope?_setScope] at found
        rw [size_setScope]
        split at found
        · rename_i set
          obtain rfl := Option.some.inj found
          exact set.2.2.2
        · exact scopes.lt_size found
      · intro other known missing
        rw [scope?_setScope] at missing
        rw [size_setScope] at known
        split at missing
        · cases missing
        · exact scopes.eq_root known missing
  | rename _ id name scopes =>
      constructor
      · intro other scope found
        rw [scope?_rename] at found
        rw [size_rename]
        exact scopes.lt_size found
      · intro other known missing
        rw [scope?_rename] at missing
        rw [size_rename] at known
        exact scopes.eq_root known missing

/-! ## Walks along scopes -/

/-- The declarations that are met from one on along its scopes, up to a header and no more than
`fuel`. -/
def scopeWalk (tree : Tree) (fuel : Nat) (id : NodeId) : List NodeId :=
  match fuel with
  | 0 => []
  | fuel + 1 =>
      id ::
        match tree.node? id with
        | none => []
        | some node =>
            if node.kind = .unit then []
            else
              match node.scope? with
              | some scope => tree.scopeWalk fuel scope
              | none => []

/-- The name that a declaration adds to those of the declarations inside it. -/
def spelling? (tree : Tree) (id : NodeId) : Option String :=
  (tree.node? id).bind fun node =>
    if node.kind = .unit ∨ node.name = "" then none else some node.name

/-- The names of declarations that were met along scopes, the outermost first. -/
def spelled (tree : Tree) (ids : List NodeId) : List String :=
  ids.reverse.filterMap tree.spelling?

theorem spelled_cons : tree.spelled (id :: ids) =
    tree.spelled ids ++ (tree.spelling? id).toList := by
  rw [spelled, List.reverse_cons, List.filterMap_append, spelled]
  cases found : tree.spelling? id <;> simp [found]

theorem length_scopeWalk_le (tree : Tree) (fuel : Nat) (id : NodeId) :
    (tree.scopeWalk fuel id).length ≤ fuel := by
  induction fuel generalizing id with
  | zero => exact Nat.le_refl 0
  | succ fuel induction =>
      rw [scopeWalk, List.length_cons, Nat.succ_le_succ_iff]
      split
      · exact Nat.zero_le fuel
      · split
        · exact Nat.zero_le fuel
        · split
          · exact induction _
          · exact Nat.zero_le fuel

/-- Whatever is met along scopes is a declaration of the header. -/
theorem ScopesInside.lt_size_of_mem_scopeWalk (scopes : tree.ScopesInside) (known : id < tree.size)
    (met : outer ∈ tree.scopeWalk fuel id) : outer < tree.size := by
  induction fuel generalizing id with
  | zero => cases met
  | succ fuel induction =>
      rw [scopeWalk] at met
      rcases List.mem_cons.mp met with rfl | later
      · exact known
      · split at later
        · cases later
        · rename_i node found
          split at later
          · cases later
          · split at later
            · rename_i scope scope_eq
              have belongs : tree.scope? id = some scope := by rw [scope?, found, ← scope_eq]; rfl
              exact induction (scopes.lt_size belongs) later
            · cases later

theorem scopeNames_eq_spelled (tree : Tree) (fuel : Nat) (id : NodeId) :
    tree.scopeNames fuel id = tree.spelled (tree.scopeWalk fuel id) := by
  induction fuel generalizing id with
  | zero => rfl
  | succ fuel induction =>
      rw [scopeNames, scopeWalk, spelled_cons]
      cases found : tree.node? id with
      | none => simp [spelling?, found, spelled]
      | some node =>
          by_cases isUnit : node.kind = .unit
          · simp [spelling?, found, isUnit, spelled]
          · cases scope_eq : node.scope? with
            | none => by_cases anonymous : node.name = "" <;>
                simp [spelling?, found, isUnit, anonymous, spelled, scope_eq]
            | some scope => by_cases anonymous : node.name = "" <;>
                simp [spelling?, found, isUnit, anonymous, scope_eq, induction]

theorem qualifiedName_eq_spelled (tree : Tree) (id : NodeId) : tree.qualifiedName id =
    "::".intercalate (tree.spelled (tree.scopeWalk (tree.size + 1) id)) := by
  rw [qualifiedName, scopeNames_eq_spelled]

/-! ## Scopes without circles -/

/-- A declaration other than a header belongs to a scope. -/
def BelongsTo (tree : Tree) (inner outer : NodeId) : Prop :=
  ∃ node, tree.node? inner = some node ∧ node.kind ≠ .unit ∧ node.scope? = some outer

/-- The declarations from one on along its scopes, up to the first header. -/
inductive Lineage (tree : Tree) : NodeId → List NodeId → Prop where
  | header {id : NodeId} {node : Node} (found : tree.node? id = some node)
      (isUnit : node.kind = .unit) : Lineage tree id [id]
  | within {id outer : NodeId} {ids : List NodeId} (belongs : tree.BelongsTo id outer)
      (lineage : Lineage tree outer ids) : Lineage tree id (id :: ids)

/-- No scope around the declaration, and not the declaration itself, is inside itself. -/
def IsAcyclic (tree : Tree) (id : NodeId) : Prop :=
  ∀ outer, Relation.ReflTransGen tree.BelongsTo id outer →
    ¬Relation.TransGen tree.BelongsTo outer outer

theorem BelongsTo.lt_size (belongs : tree.BelongsTo inner outer) : inner < tree.size := by
  obtain ⟨node, found, -⟩ := belongs
  exact (Array.getElem?_eq_some_iff.mp found).1

theorem BelongsTo.unique {other : NodeId} (first : tree.BelongsTo inner outer)
    (second : tree.BelongsTo inner other) : outer = other := by
  obtain ⟨node, found, -, scope⟩ := first
  obtain ⟨same, found_same, -, other_scope⟩ := second
  obtain rfl := Option.some.inj (found.symm.trans found_same)
  exact Option.some.inj (scope.symm.trans other_scope)

namespace Lineage

theorem unique (first : tree.Lineage id ids) (second : tree.Lineage id others) : ids = others := by
  induction first generalizing others with
  | header found isUnit =>
      cases second with
      | header => rfl
      | within belongs _ =>
          obtain ⟨node, same, noUnit, -⟩ := belongs
          exact absurd (Option.some.inj (same.symm.trans found) ▸ isUnit) noUnit
  | within belongs _ induction =>
      cases second with
      | header found isUnit =>
          obtain ⟨node, same, noUnit, -⟩ := belongs
          exact absurd (Option.some.inj (same.symm.trans found) ▸ isUnit) noUnit
      | within again rest =>
          obtain rfl := belongs.unique again
          rw [induction rest]

/-- From each declaration that is met the walk goes on as from the first one. -/
theorem exists_suffix (lineage : tree.Lineage id ids) (met : outer ∈ ids) :
    ∃ rest, tree.Lineage outer rest ∧ rest <:+ ids := by
  induction lineage with
  | header found isUnit =>
      obtain rfl := List.mem_singleton.mp met
      exact ⟨_, .header found isUnit, List.suffix_rfl⟩
  | within belongs lineage induction =>
      rcases List.mem_cons.mp met with rfl | later
      · exact ⟨_, .within belongs lineage, List.suffix_rfl⟩
      · obtain ⟨rest, lineage, suffix⟩ := induction later
        exact ⟨rest, lineage, suffix.trans (List.suffix_cons _ _)⟩

theorem nodup (lineage : tree.Lineage id ids) : ids.Nodup := by
  induction lineage with
  | header => exact List.nodup_singleton _
  | within belongs lineage induction =>
      refine List.nodup_cons.mpr ⟨fun again => ?_, induction⟩
      obtain ⟨rest, other, suffix⟩ := lineage.exists_suffix again
      have longer := suffix.length_le
      rw [other.unique (.within belongs lineage)] at longer
      exact Nat.not_succ_le_self _ longer

theorem lt_size (lineage : tree.Lineage id ids) : ∀ met ∈ ids, met < tree.size := by
  induction lineage with
  | header found _ =>
      intro met listed
      obtain rfl := List.mem_singleton.mp listed
      exact (Array.getElem?_eq_some_iff.mp found).1
  | within belongs _ induction => exact List.forall_mem_cons.mpr ⟨belongs.lt_size, induction⟩

end Lineage

/-- Different declarations are no more than all. -/
theorem length_le_size (distinct : ids.Nodup) (known : ∀ met ∈ ids, met < tree.size) :
    ids.length ≤ tree.size := by
  have inside : ids ⊆ List.range tree.size := fun met listed =>
    List.mem_range.mpr (known met listed)
  simpa using (List.subperm_of_subset distinct inside).length_le

theorem Lineage.scopeWalk_eq (lineage : tree.Lineage id ids) (enough : ids.length ≤ fuel) :
    tree.scopeWalk fuel id = ids := by
  induction lineage generalizing fuel with
  | header found isUnit =>
      obtain ⟨less, rfl⟩ := Nat.exists_eq_add_one_of_ne_zero (Nat.ne_of_gt enough)
      simp [scopeWalk, found, isUnit]
  | within belongs _ induction =>
      obtain ⟨node, found, noUnit, scope⟩ := belongs
      rw [List.length_cons] at enough
      obtain ⟨less, rfl⟩ := Nat.exists_eq_add_one_of_ne_zero (Nat.ne_zero_of_lt enough)
      simp [scopeWalk, found, noUnit, scope, induction (Nat.le_of_succ_le_succ enough)]

/-- A walk that ends at a header is never cut off. -/
theorem Lineage.qualifiedName_eq (lineage : tree.Lineage id ids) :
    tree.qualifiedName id = "::".intercalate (tree.spelled ids) := by
  have short := length_le_size lineage.nodup lineage.lt_size
  rw [qualifiedName_eq_spelled, lineage.scopeWalk_eq (Nat.le_succ_of_le short)]

/-- A declaration is a header or belongs to a scope. -/
theorem ScopesInside.isUnit_or_belongsTo (scopes : tree.ScopesInside)
    (kind_root : (tree.node? root).map Node.kind = some .unit) (known : id < tree.size) :
    (∃ node, tree.node? id = some node ∧ node.kind = .unit) ∨
      ∃ outer, tree.BelongsTo id outer ∧ outer < tree.size := by
  obtain ⟨node, found⟩ : ∃ node, tree.node? id = some node := ⟨_, Array.getElem?_eq_getElem known⟩
  by_cases isUnit : node.kind = .unit
  · exact .inl ⟨node, found, isUnit⟩
  · have scope_eq : tree.scope? id = node.scope? := by rw [scope?, found, Option.bind_some]
    cases scope : node.scope? with
    | none =>
        obtain rfl := scopes.eq_root known (scope_eq.trans scope)
        rw [found] at kind_root
        exact absurd (Option.some.inj kind_root) isUnit
    | some outer =>
        exact .inr ⟨outer, ⟨node, found, isUnit, scope⟩, scopes.lt_size (scope_eq.trans scope)⟩

/-- Without circles each step along scopes meets a declaration that is not among those in `seen`,
which are met before. As `count` more are all that can be met, a header is among them. -/
theorem ScopesInside.exists_lineage_of_seen (scopes : tree.ScopesInside)
    (kind_root : (tree.node? root).map Node.kind = some .unit) {count : Nat} {seen : List NodeId}
    (distinct : seen.Nodup)
    (before : ∀ met ∈ seen, met < tree.size ∧ Relation.TransGen tree.BelongsTo met id)
    (enough : tree.size ≤ seen.length + count) (known : id < tree.size)
    (acyclic : tree.IsAcyclic id) : ∃ ids, tree.Lineage id ids := by
  induction count generalizing id seen with
  | zero =>
      have fresh : id ∉ seen := fun again => acyclic id .refl (before id again).2
      have bound : (id :: seen).length ≤ tree.size :=
        length_le_size (List.nodup_cons.mpr ⟨fresh, distinct⟩)
          (List.forall_mem_cons.mpr ⟨known, fun met listed => (before met listed).1⟩)
      exact absurd (Nat.le_trans bound enough) (Nat.not_succ_le_self _)
  | succ count induction =>
      rcases scopes.isUnit_or_belongsTo kind_root known with
        ⟨node, found, isUnit⟩ | ⟨outer, belongs, outer_known⟩
      · exact ⟨_, .header found isUnit⟩
      · have fresh : id ∉ seen := fun again => acyclic id .refl (before id again).2
        obtain ⟨ids, lineage⟩ := induction (List.nodup_cons.mpr ⟨fresh, distinct⟩)
          (List.forall_mem_cons.mpr ⟨⟨known, .single belongs⟩, fun met listed =>
            ⟨(before met listed).1, (before met listed).2.tail belongs⟩⟩)
          (by rw [List.length_cons]; omega) outer_known
          fun other above => acyclic other (.head belongs above)
        exact ⟨_, .within belongs lineage⟩

/-- Without circles the scopes of a declaration lead to a header. -/
theorem ScopesInside.exists_lineage (scopes : tree.ScopesInside)
    (kind_root : (tree.node? root).map Node.kind = some .unit) (known : id < tree.size)
    (acyclic : tree.IsAcyclic id) : ∃ ids, tree.Lineage id ids :=
  scopes.exists_lineage_of_seen kind_root List.nodup_nil (List.forall_mem_nil _)
    (Nat.le_add_left _ _) known acyclic

/-! ## Scopes that were added before -/

/-- Every declaration but the header belongs to one that was added before it. -/
def Descends (tree : Tree) : Prop :=
  ∀ id, id < tree.size → id ≠ root → ∃ scope, scope < id ∧ tree.scope? id = some scope

theorem Descends.exists_lineage (descends : tree.Descends)
    (kind_root : (tree.node? root).map Node.kind = some .unit) (known : id < tree.size) :
    ∃ ids, tree.Lineage id ids := by
  induction id using Nat.strongRecOn with
  | ind id induction =>
      obtain ⟨node, found⟩ : ∃ node, tree.node? id = some node :=
        ⟨_, Array.getElem?_eq_getElem known⟩
      by_cases isUnit : node.kind = .unit
      · exact ⟨_, .header found isUnit⟩
      · have apart : id ≠ root := by
          rintro rfl
          rw [found] at kind_root
          exact isUnit (Option.some.inj kind_root)
        obtain ⟨scope, before, scope_eq⟩ := descends id known apart
        obtain ⟨ids, lineage⟩ := induction scope before (Nat.lt_trans before known)
        have belongs : tree.BelongsTo id scope :=
          ⟨node, found, isUnit, by rwa [scope?, found, Option.bind_some] at scope_eq⟩
        exact ⟨_, .within belongs lineage⟩

theorem ne_empty_of_mem_spelled (listed : name ∈ tree.spelled ids) : name ≠ "" := by
  obtain ⟨id, -, spelling⟩ := List.mem_filterMap.mp listed
  obtain ⟨node, -, kept⟩ := Option.bind_eq_some_iff.mp spelling
  split at kept
  · cases kept
  · rename_i named
    obtain rfl := Option.some.inj kept
    exact fun anonymous => named (.inr anonymous)

theorem intercalate_eq_empty_iff {names : List String} (named : ∀ name ∈ names, name ≠ "") :
    "::".intercalate names = "" ↔ names = [] := by
  cases names with
  | nil => simp
  | cons first rest =>
      have first_ne : first ≠ "" := named first List.mem_cons_self
      cases rest with
      | nil => simpa using first_ne
      | cons => simp [String.intercalate_cons_of_ne_nil, first_ne]

/-- Inside a named scope the qualified name goes on from that of the scope. -/
theorem Lineage.qualifiedName_within (lineage : tree.Lineage outer ids)
    (belongs : tree.BelongsTo id outer) (spelling : tree.spelling? id = some name) :
    tree.qualifiedName id =
      if tree.qualifiedName outer = "" then name else tree.qualifiedName outer ++ "::" ++ name := by
  have empty_iff : tree.qualifiedName outer = "" ↔ tree.spelled ids = [] := by
    rw [lineage.qualifiedName_eq]
    exact intercalate_eq_empty_iff fun _ => ne_empty_of_mem_spelled
  have spelled_eq : tree.spelled (id :: ids) = tree.spelled ids ++ [name] := by
    rw [spelled_cons, spelling, Option.toList_some]
  rw [(Lineage.within belongs lineage).qualifiedName_eq, spelled_eq]
  by_cases top : tree.spelled ids = []
  · rw [if_pos (empty_iff.mpr top), top, List.nil_append, String.intercalate_singleton]
  · rw [if_neg (mt empty_iff.mp top), lineage.qualifiedName_eq,
      String.intercalate_append_of_ne_nil top (List.cons_ne_nil _ _), String.intercalate_singleton]

theorem Descends.qualifiedName_within (descends : tree.Descends)
    (kind_root : (tree.node? root).map Node.kind = some .unit) (found : tree.node? id = some node)
    (noUnit : node.kind ≠ .unit) (named : node.name ≠ "") (belongs : tree.scope? id = some outer) :
    tree.qualifiedName id = if tree.qualifiedName outer = "" then node.name
      else tree.qualifiedName outer ++ "::" ++ node.name := by
  have known : id < tree.size := (Array.getElem?_eq_some_iff.mp found).1
  have apart : id ≠ root := by
    rintro rfl
    rw [found] at kind_root
    exact noUnit (Option.some.inj kind_root)
  obtain ⟨scope, before, scope_eq⟩ := descends id known apart
  obtain rfl := Option.some.inj (belongs.symm.trans scope_eq)
  obtain ⟨ids, lineage⟩ := descends.exists_lineage kind_root (Nat.lt_trans before known)
  rw [scope?, found, Option.bind_some] at belongs
  exact lineage.qualifiedName_within ⟨node, found, noUnit, belongs⟩
    (by simp [spelling?, found, noUnit, named])

end Tree
end Decl
end HeaderBinding
