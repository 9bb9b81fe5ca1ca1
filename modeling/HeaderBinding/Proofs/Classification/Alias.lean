import HeaderBinding.Classification

/-!
# Chains of names

`Chain` is the chain of other names that begins with a name, apart from the bounded walk that
follows it. On a chain that is short enough the walk ends where the chain does, so a name is
classified by the end of its chain, just as the spelling that it stands for.
-/

namespace HeaderBinding

/-- A primitive type, an enum or a record. -/
def Classification.isDirect : Classification → Bool
  | .primitive _ | .enumRef .. | .recordRef .. => true
  | .vectorOf .. | .mapped _ | .unsupported .. => false

/-- The classification without the spelling of an unsupported type. -/
def Classification.unspelled : Classification → Classification
  | .unsupported _ obstacle? => .unsupported "" obstacle?
  | classification => classification

theorem Classification.eq_of_unspelled_eq {first second : Classification}
    (same : first.unspelled = second.unspelled) (direct : second.isDirect) : first = second := by
  cases second with
  | primitive | enumRef | recordRef =>
      cases first <;> simp [unspelled] at same ⊢
      assumption
  | vectorOf | mapped | unsupported => simp [isDirect] at direct

namespace TypeScope

open Text

/-- The chain of names from `name` has this many links and ends in `last`. -/
inductive Chain (registry : Registry) : Nat → String → String → Prop where
  | last {name : String} (final : registry.target? name = none) : Chain registry 0 name name
  | link {links : Nat} {name next last : String} (target : registry.target? name = some next)
      (rest : Chain registry links next last) : Chain registry (links + 1) name last

namespace Chain

variable {registry : Registry}

/-- A name begins one chain only. -/
theorem unique {links others : Nat} {name last final : String}
    (chain : Chain registry links name last) (other : Chain registry others name final) :
    links = others ∧ last = final := by
  induction chain generalizing others with
  | last terminal =>
      cases other with
      | last => exact ⟨rfl, rfl⟩
      | link target => simp [terminal] at target
  | link target _ induction =>
      cases other with
      | last terminal => simp [terminal] at target
      | link otherTarget otherRest =>
          obtain rfl := Option.some.inj (target.symm.trans otherTarget)
          obtain ⟨rfl, rfl⟩ := induction otherRest
          exact ⟨rfl, rfl⟩

/-- A name that begins a chain is not among names that begin longer ones. -/
private theorem not_mem_of_longer {links : Nat} {name last : String} {seen : List String}
    (chain : Chain registry links name last)
    (longer : ∀ earlier ∈ seen, ∃ more final, links < more ∧ Chain registry more earlier final) :
    name ∉ seen := by
  intro member
  obtain ⟨more, final, more_lt, again⟩ := longer name member
  have := (chain.unique again).1
  omega

theorem resolveFrom {links bound : Nat} {name last : String} {seen : List String}
    (chain : Chain registry links name last) (enough : links ≤ bound)
    (longer : ∀ earlier ∈ seen, ∃ more final, links < more ∧ Chain registry more earlier final) :
    resolveFrom registry seen bound name = ⟨last, .terminal⟩ := by
  induction chain generalizing bound seen with
  | last terminal =>
      have fresh := not_mem_of_longer (.last terminal) longer
      rw [TypeScope.resolveFrom.eq_def]
      simp [fresh, terminal]
  | @link links name next last target rest induction =>
      have fresh := not_mem_of_longer (.link target rest) longer
      obtain ⟨bound, rfl⟩ := Nat.exists_eq_add_one_of_ne_zero (show bound ≠ 0 by omega)
      have still_longer : ∀ earlier ∈ name :: seen,
          ∃ more final, links < more ∧ Chain registry more earlier final := by
        intro earlier member
        rcases List.mem_cons.mp member with rfl | before
        · exact ⟨links + 1, last, by omega, .link target rest⟩
        · obtain ⟨more, final, more_lt, again⟩ := longer earlier before
          exact ⟨more, final, by omega, again⟩
      rw [TypeScope.resolveFrom.eq_def]
      simp only [List.contains_iff_mem, fresh, if_false, target]
      exact induction (by omega) still_longer

end Chain

/-- A chain of at most twenty links is followed to its end. -/
theorem resolve_of_chain {scope : TypeScope} {links : Nat} {name last : String}
    (chain : Chain scope.registry links name last) (short : links ≤ maxDepth) :
    scope.resolve name = ⟨last, .terminal⟩ :=
  chain.resolveFrom short (by simp)

theorem classifyWithin_of_chain {scope : TypeScope} {levels links : Nat} {spelling last : String}
    (nonblank : trimmed spelling ≠ "") (unmapped : scope.overrides[trimmed spelling]? = none)
    (chain : Chain scope.registry links (trimmed spelling) last) (short : links ≤ maxDepth) :
    scope.classifyWithin (levels + 1) spelling =
      scope.classifyResolved (scope.classifyWithin levels) (trimmed spelling) last := by
  simp [classifyWithin, nonblank, unmapped, resolve_of_chain chain short]

/-- A name is classified by the end of its chain. -/
theorem classify_of_chain {scope : TypeScope} {links : Nat} {name last : String}
    (name_trimmed : trimmed name = name) (name_ne : name ≠ "")
    (unmapped : scope.overrides[name]? = none)
    (chain : Chain scope.registry links name last) (short : links ≤ maxDepth) :
    scope.classify name = scope.classifyResolved (scope.classifyWithin maxDepth) name last := by
  rw [← name_trimmed] at name_ne unmapped chain
  rw [classify, classifyWithin_of_chain name_ne unmapped chain short, name_trimmed]

/-! ## Spellings with the same end -/

section

variable {scope : TypeScope} {classifyInner : String → Classification}
  {spelling other resolved : String}

theorem unspelled_decorate {shape : Shape} {base : Classification} :
    (decorate spelling shape base).unspelled = (decorate other shape base).unspelled := by
  cases base <;> simp only [decorate] <;> split <;> rfl

theorem unspelled_classifyPattern :
    (classifyPattern classifyInner spelling resolved).unspelled =
      (classifyPattern classifyInner other resolved).unspelled := by
  simp only [classifyPattern]
  repeat' split
  all_goals rfl

theorem unspelled_classifyUnknown :
    (classifyUnknown classifyInner spelling resolved).unspelled =
      (classifyUnknown classifyInner other resolved).unspelled := by
  simp only [classifyUnknown]
  split
  · split
    · rfl
    · exact unspelled_decorate
  · exact unspelled_classifyPattern

/-- Only the spelling in an unsupported type depends on the spelling that was asked about. -/
theorem unspelled_classifyResolved :
    (scope.classifyResolved classifyInner spelling resolved).unspelled =
      (scope.classifyResolved classifyInner other resolved).unspelled := by
  cases builtin : Builtin.primitive? resolved with
  | some target => simp only [classifyResolved, builtin]
  | none =>
      simp only [classifyResolved, builtin]
      cases scope.registry.find? resolved with
      | none => exact unspelled_classifyUnknown
      | some entry =>
          cases entry with
          | synonym target | mapped target =>
              cases target with
              | none => exact unspelled_classifyUnknown
              | some => rfl
          | record complete => cases complete <;> rfl
          | enum | scopeAlias => rfl

end

/-- A mapped spelling, and nothing at all, are not direct. -/
theorem unmapped_of_isDirect {scope : TypeScope} {spelling : String}
    (spelling_trimmed : trimmed spelling = spelling) (direct : (scope.classify spelling).isDirect) :
    spelling ≠ "" ∧ scope.overrides[spelling]? = none := by
  simp only [classify, classifyWithin, spelling_trimmed] at direct
  split at direct
  · simp [Classification.isDirect] at direct
  · split at direct
    · simp [Classification.isDirect] at direct
    · rename_i spelling_ne _ unmapped
      exact ⟨spelling_ne, unmapped⟩

/-- A name that stands for a spelling of a primitive type, an enum or a record is classified as that
spelling is. -/
theorem classify_eq_of_target {scope : TypeScope} {links : Nat} {name target last : String}
    (name_trimmed : trimmed name = name) (name_ne : name ≠ "")
    (unmapped : scope.overrides[name]? = none) (stands : scope.registry.target? name = some target)
    (chain : Chain scope.registry links name last) (short : links ≤ maxDepth)
    (target_trimmed : trimmed target = target) (direct : (scope.classify target).isDirect) :
    scope.classify name = scope.classify target := by
  cases chain with
  | last final => simp [final] at stands
  | link link rest =>
      obtain rfl := Option.some.inj (stands.symm.trans link)
      obtain ⟨target_ne, target_unmapped⟩ := unmapped_of_isDirect target_trimmed direct
      have ends := classify_of_chain target_trimmed target_ne target_unmapped rest (by omega)
      rw [ends] at direct
      rw [classify_of_chain name_trimmed name_ne unmapped (.link link rest) short, ends]
      exact Classification.eq_of_unspelled_eq unspelled_classifyResolved direct

end TypeScope
end HeaderBinding
