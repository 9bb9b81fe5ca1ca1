import HeaderBinding.Proofs.Classification.Cycle

/-!
# Long chains

A walk along a chain of names ends after twenty links. If the chain goes on, the name after those
is classified anew, one level deeper, so that each of the twenty-one levels goes twenty-one links
further and the last one may stand still. A chain of up to 440 links is followed to its end, and one
that has no end is found out or given up.
-/

namespace HeaderBinding
namespace TypeScope

open Text

/-! ## Parts of chains -/

namespace Leads

variable {registry : Registry} {links more : Nat} {name met other target : String}

theorem trans (first : Leads registry links name met) (second : Leads registry more met target) :
    Leads registry (links + more) name target := by
  induction first with
  | here => rwa [Nat.zero_add]
  | @link links name next met stands _ induction =>
      rw [Nat.add_right_comm]
      exact .link stands (induction second)

theorem split (leads : Leads registry (links + more) name target) :
    ∃ met, Leads registry links name met ∧ Leads registry more met target := by
  induction links generalizing name with
  | zero => exact ⟨name, .here name, by rwa [Nat.zero_add] at leads⟩
  | succ links induction =>
      rw [Nat.add_right_comm] at leads
      cases leads with
      | link stands rest =>
          obtain ⟨met, first, second⟩ := induction rest
          exact ⟨met, .link stands first, second⟩

/-- Every name leads on to one name at most. -/
theorem unique (leads : Leads registry links name met) (again : Leads registry links name other) :
    met = other := by
  induction leads with
  | here =>
      cases again
      rfl
  | link stands _ induction =>
      cases again with
      | link again_stands rest =>
          obtain rfl := Option.some.inj (stands.symm.trans again_stands)
          exact induction rest

end Leads

section

variable {registry : Registry} {links more bound : Nat} {name next met last far : String}
  {seen : List String}

theorem Chain.leads (chain : Chain registry links name last) : Leads registry links name last := by
  induction chain with
  | last => exact .here _
  | link stands _ induction => exact .link stands induction

/-- A part of a chain is followed by the rest of it. -/
theorem Chain.rest (chain : Chain registry links name last)
    (leads : Leads registry more name met) :
    ∃ rest, links = more + rest ∧ Chain registry rest met last := by
  induction leads generalizing links with
  | here => exact ⟨links, (Nat.zero_add links).symm, chain⟩
  | @link more name next met stands _ induction =>
      cases chain with
      | last final => simp [final] at stands
      | link target behind =>
          obtain rfl := Option.some.inj (target.symm.trans stands)
          obtain ⟨rest, rfl, chain⟩ := induction behind
          exact ⟨rest, Nat.add_right_comm .., chain⟩

/-- A chain that ends does not come back. -/
theorem Chain.not_returns (chain : Chain registry links name last) :
    ¬Returns registry more name := by
  rintro ⟨again, again_lt, met, first, second⟩
  obtain ⟨rest, links_eq, chain_first⟩ := chain.rest first
  obtain ⟨rest', links_eq', chain_second⟩ := chain.rest second
  have := (chain_first.unique chain_second).1
  omega

/-- A walk that meets no name twice stops when it has followed as many links as it may. -/
theorem resolveFrom_of_leads (leads : Leads registry bound name far)
    (onward : registry.target? far = some next)
    (apart : ∀ links ≤ bound, ¬Returns registry links name)
    (fresh : ∀ links ≤ bound, ∀ met, Leads registry links name met → met ∉ seen) :
    resolveFrom registry seen bound name = ⟨far, .depthLimit⟩ := by
  induction leads generalizing seen with
  | here name =>
      have unseen := fresh 0 (Nat.le_refl 0) name (.here name)
      rw [resolveFrom.eq_def]
      simp [unseen, onward]
  | @link links name following far stands rest induction =>
      have unseen := fresh 0 (Nat.zero_le _) name (.here name)
      rw [resolveFrom.eq_def]
      simp only [List.contains_iff_mem, unseen, if_false, stands]
      refine induction onward (fun more short returns => ?_) fun more short met leads => ?_
      · exact apart (more + 1) (Nat.succ_le_succ short) (returns.link stands)
      · have here := Leads.link stands leads
        refine List.not_mem_cons_of_ne_of_not_mem ?_ (fresh _ (Nat.succ_le_succ short) met here)
        rintro rfl
        exact apart _ (Nat.succ_le_succ short) ⟨0, Nat.succ_pos _, met, .here met, here⟩

end

/-! ## One level -/

/-- The names on the chain from `name` are no blank spellings and have no mappings, and those that
lead on are no built-in types. -/
structure IsPlainChain (scope : TypeScope) (name : String) : Prop where
  trimmed_eq : ∀ {links met}, Leads scope.registry links name met → trimmed met = met
  ne_empty : ∀ {links met}, Leads scope.registry links name met → met ≠ ""
  unmapped : ∀ {links met}, Leads scope.registry links name met → scope.overrides[met]? = none
  noBuiltin : ∀ {links met next}, Leads scope.registry links name met →
    scope.registry.target? met = some next → Builtin.primitive? met = none

section

variable {scope : TypeScope} {levels links : Nat} {name next met far last : String}

theorem IsPlainChain.of_leads (plain : scope.IsPlainChain name)
    (leads : Leads scope.registry links name met) : scope.IsPlainChain met where
  trimmed_eq further := plain.trimmed_eq (leads.trans further)
  ne_empty further := plain.ne_empty (leads.trans further)
  unmapped further := plain.unmapped (leads.trans further)
  noBuiltin further := plain.noBuiltin (leads.trans further)

/-- The names on a chain are plain if those in a list are that the chain does not leave. -/
theorem isPlainChain_of_closed (names : List String) (member : name ∈ names)
    (closed : ∀ met ∈ names, ∀ next, scope.registry.target? met = some next → next ∈ names)
    (plain : ∀ met ∈ names, trimmed met = met ∧ met ≠ "" ∧ scope.overrides[met]? = none)
    (noBuiltin : ∀ met ∈ names, (scope.registry.target? met).isSome →
      Builtin.primitive? met = none) : scope.IsPlainChain name := by
  have inside : ∀ {links met}, Leads scope.registry links name met → met ∈ names := by
    intro links met leads
    induction leads with
    | here => exact member
    | link stands _ induction => exact induction (closed _ member _ stands)
  exact
    { trimmed_eq := fun leads => (plain _ (inside leads)).1
      ne_empty := fun leads => (plain _ (inside leads)).2.1
      unmapped := fun leads => (plain _ (inside leads)).2.2
      noBuiltin := fun leads stands => noBuiltin _ (inside leads) (by simp [stands]) }

theorem classifyResolved_of_target {classifyInner : String → Classification} {spelling : String}
    (noBuiltin : Builtin.primitive? far = none) (stands : scope.registry.target? far = some next) :
    scope.classifyResolved classifyInner spelling far = classifyInner next := by
  obtain ⟨entry, found, target⟩ := Option.bind_eq_some_iff.mp stands
  unfold classifyResolved
  rw [noBuiltin, found]
  cases entry with
  | synonym | mapped =>
      obtain rfl : _ = some next := target
      rfl
  | scopeAlias =>
      obtain rfl := Option.some.inj target
      rfl
  | record | enum => cases target

/-- A level that comes to its bound on links leaves the rest of the chain to the next one. -/
theorem IsPlainChain.classifyWithin_succ (plain : scope.IsPlainChain name)
    (leads : Leads scope.registry maxDepth name far)
    (onward : scope.registry.target? far = some next)
    (apart : ∀ links ≤ maxDepth, ¬Returns scope.registry links name) :
    scope.classifyWithin (levels + 1) name = scope.classifyWithin levels next := by
  have resolved : scope.resolve name = ⟨far, .depthLimit⟩ :=
    resolveFrom_of_leads leads onward apart (by simp)
  have start : Leads scope.registry 0 name name := .here name
  simp only [classifyWithin, plain.trimmed_eq start, plain.ne_empty start, plain.unmapped start,
    resolved, if_false]
  rw [if_neg (by decide), classifyResolved_of_target (plain.noBuiltin leads onward) onward]

/-! ## Chains that end -/

/-- A built-in type, an enum or a record. -/
def IsTypeName (scope : TypeScope) (name : String) : Prop :=
  (Builtin.primitive? name).isSome ∨
    (∃ enumerators, scope.registry.find? name = some (.enum enumerators)) ∨
      ∃ complete, scope.registry.find? name = some (.record complete)

/-- Such a name is classified alike at the end of every chain and on every level. -/
theorem IsTypeName.classifyResolved_eq {classifyInner other : String → Classification}
    {spelling another : String} (isTypeName : scope.IsTypeName last) :
    scope.classifyResolved classifyInner spelling last =
      scope.classifyResolved other another last := by
  unfold classifyResolved
  cases builtin : Builtin.primitive? last with
  | some target => rfl
  | none =>
      rcases isTypeName with known | ⟨enumerators, found⟩ | ⟨complete, found⟩
      · simp [builtin] at known
      · rw [found]
      · rw [found]
        cases complete <;> rfl

/-- Of a chain that ends, each level follows twenty-one links. -/
theorem IsPlainChain.classifyWithin_add (plain : scope.IsPlainChain name)
    (chain : Chain scope.registry links name last) (restarts : Nat)
    (leads : Leads scope.registry ((maxDepth + 1) * restarts) name met) :
    scope.classifyWithin (levels + restarts) name = scope.classifyWithin levels met := by
  induction restarts generalizing name links with
  | zero =>
      cases leads
      rfl
  | succ restarts induction =>
      rw [Nat.mul_succ, Nat.add_comm] at leads
      obtain ⟨next, level, behind⟩ := leads.split
      obtain ⟨rest, -, chain_next⟩ := chain.rest level
      obtain ⟨far, most, final⟩ := level.split
      cases final with
      | link onward final =>
          cases final
          rw [← Nat.add_assoc, plain.classifyWithin_succ most onward
            fun _ _ => chain.not_returns]
          exact induction (plain.of_leads level) chain_next behind

/-- The last level follows what is left of the chain. -/
theorem IsPlainChain.classifyWithin_of_chain (plain : scope.IsPlainChain name)
    (chain : Chain scope.registry links name last) (short : links ≤ maxDepth) :
    scope.classifyWithin (levels + 1) name =
      scope.classifyResolved (scope.classifyWithin levels) name last := by
  have start : Leads scope.registry 0 name name := .here name
  have trimmed_eq := plain.trimmed_eq start
  have ne_empty := plain.ne_empty start
  have unmapped := plain.unmapped start
  rw [← trimmed_eq] at ne_empty unmapped chain
  rw [TypeScope.classifyWithin_of_chain ne_empty unmapped chain short, trimmed_eq]

theorem IsPlainChain.classify_of_short (plain : scope.IsPlainChain name)
    (chain : Chain scope.registry links name last) (isTypeName : scope.IsTypeName last)
    (short : links ≤ 440) : scope.classify name = scope.classify last := by
  have parts : (maxDepth + 1) * (links / 21) + links % 21 = links := Nat.div_add_mod links 21
  have left_lt : links % 21 < 21 := Nat.mod_lt links (by decide)
  have restarts_le : links / 21 ≤ maxDepth := Nat.div_le_div_right short
  obtain ⟨levels, levels_eq⟩ := Nat.exists_eq_add_of_le' restarts_le
  have whole := chain.leads
  rw [← parts] at whole
  obtain ⟨met, leads, -⟩ := whole.split
  obtain ⟨rest, links_eq, chain_met⟩ := chain.rest leads
  obtain ⟨behind, behind_eq, chain_last⟩ := chain.rest chain.leads
  have rest_le : rest ≤ maxDepth := by
    unfold maxDepth
    omega
  have followed : scope.classify name = scope.classifyWithin (levels + 1) met := by
    rw [classify, levels_eq, Nat.add_right_comm]
    exact plain.classifyWithin_add chain (links / 21) leads
  rw [followed, (plain.of_leads leads).classifyWithin_of_chain chain_met rest_le, classify,
    (plain.of_leads chain.leads).classifyWithin_of_chain chain_last (by omega)]
  exact isTypeName.classifyResolved_eq

/-- After 441 links no level is left. -/
theorem IsPlainChain.classify_of_long (plain : scope.IsPlainChain name)
    (chain : Chain scope.registry links name last)
    (leads : Leads scope.registry 441 name met) :
    scope.classify name = .unsupported met (some .depthLimit) := by
  have followed : scope.classify name = scope.classifyWithin 0 met := by
    rw [classify, ← Nat.zero_add (maxDepth + 1)]
    exact plain.classifyWithin_add chain (maxDepth + 1) leads
  rw [followed, classifyWithin, plain.trimmed_eq leads]

/-! ## Chains without an end -/

/-- The chain from a name goes on for ever. -/
def NeverEnds (registry : Registry) (name : String) : Prop :=
  ∀ links, ∃ met, Leads registry links name met

theorem NeverEnds.of_leads (endless : NeverEnds scope.registry name)
    (leads : Leads scope.registry links name met) : NeverEnds scope.registry met := by
  intro more
  obtain ⟨target, further⟩ := endless (links + more)
  obtain ⟨other, first, second⟩ := further.split
  obtain rfl := leads.unique first
  exact ⟨target, second⟩

theorem IsPlainChain.classifyWithin_of_returns (plain : scope.IsPlainChain name)
    (returns : Returns scope.registry links name) (short : links ≤ maxDepth) :
    scope.classifyWithin (levels + 1) name = .unsupported name (some .aliasCycle) :=
  TypeScope.classifyWithin_of_returns (plain.trimmed_eq (.here name)) (plain.ne_empty (.here name))
    (plain.unmapped (.here name)) returns short

/-- A chain without an end is found to come back, or it is given up. -/
theorem IsPlainChain.classifyWithin_of_neverEnds (plain : scope.IsPlainChain name)
    (endless : NeverEnds scope.registry name) (levels : Nat) :
    ∃ met, scope.classifyWithin levels name = .unsupported met (some .aliasCycle) ∨
      scope.classifyWithin levels name = .unsupported met (some .depthLimit) := by
  induction levels generalizing name with
  | zero => exact ⟨trimmed name, .inr rfl⟩
  | succ levels induction =>
      by_cases comesBack : ∃ links ≤ maxDepth, Returns scope.registry links name
      · obtain ⟨links, short, returns⟩ := comesBack
        exact ⟨name, .inl (plain.classifyWithin_of_returns returns short)⟩
      · obtain ⟨next, level⟩ := endless (maxDepth + 1)
        obtain ⟨far, most, final⟩ := level.split
        cases final with
        | link onward final =>
            cases final
            rw [plain.classifyWithin_succ most onward fun links short returns =>
              comesBack ⟨links, short, returns⟩]
            exact induction (plain.of_leads level) (endless.of_leads level)

end

/-- A name whose chain ends in a type is classified as that type, if the chain has up to 440 links.
A longer chain is given up after 441 links. A chain without an end is found to come back or given
up; it is found out at once if its way to a circle and around it has up to twenty links. -/
theorem classify_of_isPlainChain {scope : TypeScope} {name : String}
    (plain : scope.IsPlainChain name) :
    (∀ links last, Chain scope.registry links name last → scope.IsTypeName last →
      (links ≤ 440 → scope.classify name = scope.classify last) ∧
      (441 ≤ links → ∃ met, Leads scope.registry 441 name met ∧
        scope.classify name = .unsupported met (some .depthLimit))) ∧
    (NeverEnds scope.registry name →
      ∃ met, scope.classify name = .unsupported met (some .aliasCycle) ∨
        scope.classify name = .unsupported met (some .depthLimit)) ∧
    ∀ leadIn around met, 0 < around → Leads scope.registry leadIn name met →
      Leads scope.registry around met met → leadIn + around ≤ 20 →
        scope.classify name = .unsupported name (some .aliasCycle) := by
  refine ⟨fun links last chain isTypeName => ⟨fun short => ?_, fun long => ?_⟩, ?_, ?_⟩
  · exact plain.classify_of_short chain isTypeName short
  · obtain ⟨rest, rfl⟩ := Nat.exists_eq_add_of_le long
    obtain ⟨met, leads, -⟩ := chain.leads.split
    exact ⟨met, leads, plain.classify_of_long chain leads⟩
  · exact fun endless => plain.classifyWithin_of_neverEnds endless _
  · intro leadIn around met around_pos leads circle short
    refine plain.classifyWithin_of_returns ⟨leadIn, ?_, met, leads, leads.trans circle⟩ short
    omega

/-- A name for a name of a built-in type, and a name that leads to a circle of two names. -/
def chainedNames : TypeScope where
  registry := Registry.empty.addAll
    [("Length", .synonym (some "Real")), ("Real", .synonym (some "Standard_Real")),
      ("Link", .synonym (some "Node")), ("Node", .synonym (some "Next")),
      ("Next", .scopeAlias "Node")]
  overrides := ∅

theorem classify_length_and_link :
    chainedNames.IsPlainChain "Length" ∧ chainedNames.IsPlainChain "Link" ∧
      chainedNames.IsTypeName "Standard_Real" ∧
      chainedNames.classify "Length" = chainedNames.classify "Standard_Real" ∧
      chainedNames.classify "Link" = .unsupported "Link" (some .aliasCycle) := by
  have unmapped (name : String) : chainedNames.overrides[name]? = none :=
    Std.ExtTreeMap.getElem?_empty
  have length : chainedNames.registry.target? "Length" = some "Real" := by decide +kernel
  have real : chainedNames.registry.target? "Real" = some "Standard_Real" := by decide +kernel
  have final : chainedNames.registry.target? "Standard_Real" = none := by decide +kernel
  have link : chainedNames.registry.target? "Link" = some "Node" := by decide +kernel
  have node : chainedNames.registry.target? "Node" = some "Next" := by decide +kernel
  have again : chainedNames.registry.target? "Next" = some "Node" := by decide +kernel
  have plain_length : chainedNames.IsPlainChain "Length" := by
    refine isPlainChain_of_closed ["Length", "Real", "Standard_Real"] List.mem_cons_self
      ?_ ?_ ?_
    · simp [length, real, final]
    · simp only [unmapped]
      decide +kernel
    · simp only [List.forall_mem_cons, length, real, final]
      decide
  have plain_link : chainedNames.IsPlainChain "Link" := by
    refine isPlainChain_of_closed ["Link", "Node", "Next"] List.mem_cons_self ?_ ?_ ?_
    · simp [link, node, again]
    · simp only [unmapped]
      decide +kernel
    · decide +kernel
  have isTypeName : chainedNames.IsTypeName "Standard_Real" := .inl (by decide)
  obtain ⟨ends, -, -⟩ := classify_of_isPlainChain plain_length
  obtain ⟨-, -, comesBack⟩ := classify_of_isPlainChain plain_link
  refine ⟨plain_length, plain_link, isTypeName, ?_, ?_⟩
  · exact (ends 2 "Standard_Real" (.link length (.link real (.last final))) isTypeName).1
      (by decide)
  · exact comesBack 1 2 "Node" (by decide) (.link link (.here _))
      (.link node (.link again (.here _))) (by decide)

end TypeScope
end HeaderBinding
