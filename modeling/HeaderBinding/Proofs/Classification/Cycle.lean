import HeaderBinding.Proofs.Classification.Indirection

/-!
# Chains that come back

The names on a chain may come back to one that was passed before, so that the chain has no end. If
that happens within the bound on links it is found out, and then no name on the chain is supported.
A name and the one that it stands for are classified alike either way.
-/

namespace HeaderBinding
namespace TypeScope

open Text

/-- After so many links the chain from a name is at a name that it has passed before. -/
def Returns (registry : Registry) (links : Nat) (name : String) : Prop :=
  ∃ again < links, ∃ met, Leads registry again name met ∧ Leads registry links name met

/-- After at most so many links the chain from a name ends or comes back. -/
def Settles (registry : Registry) (bound : Nat) (name : String) : Prop :=
  ∃ links ≤ bound, (∃ last, Chain registry links name last) ∨ Returns registry links name

section

variable {registry : Registry} {links bound : Nat} {name next met : String} {seen : List String}

theorem Returns.link (stands : registry.target? name = some next)
    (returns : Returns registry links next) : Returns registry (links + 1) name := by
  obtain ⟨again, again_lt, met, first, second⟩ := returns
  exact ⟨again + 1, by omega, met, .link stands first, .link stands second⟩

/-- A chain that leads to a name that was seen, or that it passes twice, is known to come back. -/
theorem Leads.stop_resolveFrom (leads : Leads registry links name met) (enough : links ≤ bound)
    (passed : met ∈ seen ∨ ∃ again < links, Leads registry again name met) :
    (resolveFrom registry seen bound name).stop = .cycle := by
  induction leads generalizing seen bound with
  | here name =>
      have known : name ∈ seen := by
        rcases passed with known | ⟨again, again_lt, -⟩
        · exact known
        · omega
      rw [resolveFrom.eq_def]
      simp [known]
  | @link links name next met stands rest induction =>
      rw [resolveFrom.eq_def]
      by_cases known : name ∈ seen
      · simp [known]
      · obtain ⟨less, rfl⟩ := Nat.exists_eq_add_one_of_ne_zero (show bound ≠ 0 by omega)
        simp only [List.contains_iff_mem, known, if_false, stands]
        apply induction (by omega)
        rcases passed with before | ⟨again, again_lt, first⟩
        · exact .inl (List.mem_cons_of_mem _ before)
        · cases first with
          | here => exact .inl List.mem_cons_self
          | @link again _ other _ other_stands first =>
              obtain rfl := Option.some.inj (stands.symm.trans other_stands)
              exact .inr ⟨again, by omega, first⟩

end

variable {scope : TypeScope} {levels links : Nat} {name next : String}

theorem classifyWithin_of_returns (name_trimmed : trimmed name = name) (name_ne : name ≠ "")
    (unmapped : scope.overrides[name]? = none) (returns : Returns scope.registry links name)
    (short : links ≤ maxDepth) :
    scope.classifyWithin (levels + 1) name = .unsupported name (some .aliasCycle) := by
  obtain ⟨again, again_lt, met, first, second⟩ := returns
  have stop : (scope.resolve name).stop = .cycle :=
    second.stop_resolveFrom short (.inr ⟨again, again_lt, first⟩)
  simp [classifyWithin, name_trimmed, name_ne, unmapped, stop]

theorem classify_of_returns (name_trimmed : trimmed name = name) (name_ne : name ≠ "")
    (unmapped : scope.overrides[name]? = none) (returns : Returns scope.registry links name)
    (short : links ≤ maxDepth) : scope.classify name = .unsupported name (some .aliasCycle) :=
  classifyWithin_of_returns name_trimmed name_ne unmapped returns short

/-- A name is classified as the name that it stands for, if one link more is within the bound. -/
theorem unspelled_classify_of_link (name_trimmed : trimmed name = name) (name_ne : name ≠ "")
    (next_trimmed : trimmed next = next) (next_ne : next ≠ "")
    (name_unmapped : scope.overrides[name]? = none)
    (next_unmapped : scope.overrides[next]? = none)
    (stands : scope.registry.target? name = some next)
    (settles : Settles scope.registry (maxDepth - 1) next) :
    (scope.classify name).unspelled = (scope.classify next).unspelled := by
  obtain ⟨links, short, ⟨last, chain⟩ | returns⟩ := settles
  · rw [classify_of_chain name_trimmed name_ne name_unmapped (.link stands chain)
        (Nat.add_le_of_le_sub (by decide) short),
      classify_of_chain next_trimmed next_ne next_unmapped chain
        (Nat.le_trans short (Nat.sub_le ..))]
    exact unspelled_classifyResolved
  · rw [classify_of_returns name_trimmed name_ne name_unmapped (returns.link stands)
        (Nat.add_le_of_le_sub (by decide) short),
      classify_of_returns next_trimmed next_ne next_unmapped returns
        (Nat.le_trans short (Nat.sub_le ..))]
    rfl

end TypeScope
end HeaderBinding
