import HeaderBinding.Api.Scan
import Mathlib.Data.List.Nodup
import Mathlib.Data.List.Perm.Subperm

/-!
# Names of parameters

A parameter without a name is called by its place, with as many underscores behind that as it takes
to get a name that no other parameter has. Some number of underscores is always enough, as only
finitely many names are taken. Main statement: `completes_collectParams`.
-/

namespace HeaderBinding
namespace Api

/-- The name with underscores behind it. -/
def underscored (name : String) (count : Nat) : String :=
  name ++ String.ofList (List.replicate count '_')

/-- The name is free with that many underscores behind it and with no fewer. -/
structure IsFirstFree (taken : List String) (name : String) (count : Nat) : Prop where
  free : underscored name count ∉ taken
  taken_of_lt : ∀ fewer < count, underscored name fewer ∈ taken

section

variable {taken others declared : List String} {name : String} {count fuel index : Nat}

theorem underscored_zero (name : String) : underscored name 0 = name := by
  simp [underscored]

theorem underscored_push (name : String) (count : Nat) :
    underscored (name.push '_') count = underscored name (count + 1) := by
  apply String.toList_injective
  simp [underscored, List.replicate_succ]

theorem underscored_injective (name : String) : Function.Injective (underscored name) := by
  intro first second same
  have lengths := congrArg String.length same
  simpa [underscored, String.length_append] using lengths

theorem IsFirstFree.congr (free : IsFirstFree taken name count)
    (same : ∀ other, other ∈ taken ↔ other ∈ others) : IsFirstFree others name count where
  free := fun again => free.free ((same _).mpr again)
  taken_of_lt fewer less := (same _).mp (free.taken_of_lt fewer less)

/-! ## One name -/

/-- The search ends at the first free name, or when there is no fuel left. -/
theorem exists_freshName_eq (taken : List String) (fuel : Nat) (name : String) :
    ∃ count ≤ fuel, freshName taken fuel name = underscored name count ∧
      (∀ fewer < count, underscored name fewer ∈ taken) ∧
      (underscored name count ∉ taken ∨ count = fuel) := by
  induction fuel generalizing name with
  | zero => exact ⟨0, Nat.le_refl 0, (underscored_zero name).symm, nofun, .inr rfl⟩
  | succ fuel induction =>
      rw [freshName]
      by_cases used : name ∈ taken
      · obtain ⟨count, enough, found, before, ends⟩ := induction (name.push '_')
        refine ⟨count + 1, Nat.succ_le_succ enough, ?_, ?_, ?_⟩
        · rw [if_pos (List.contains_iff_mem.mpr used), found, underscored_push]
        · intro fewer less
          cases fewer with
          | zero => rwa [underscored_zero]
          | succ fewer =>
              rw [← underscored_push]
              exact before fewer (Nat.lt_of_succ_lt_succ less)
        · rw [← underscored_push]
          exact ends.imp_right (congrArg Nat.succ)
      · refine ⟨0, Nat.zero_le _, ?_, nofun, .inl (by rwa [underscored_zero])⟩
        rw [if_neg (mt List.contains_iff_mem.mp used), underscored_zero]

/-- There are more names with underscores than names that are taken. -/
theorem exists_underscored_not_mem (taken : List String) (name : String) :
    ∃ count ≤ taken.length, underscored name count ∉ taken := by
  by_contra! used
  have distinct : ((List.range (taken.length + 1)).map (underscored name)).Nodup :=
    List.nodup_range.map (underscored_injective name)
  have inside : (List.range (taken.length + 1)).map (underscored name) ⊆ taken := by
    intro other listed
    obtain ⟨count, less, rfl⟩ := List.mem_map.mp listed
    exact used count (Nat.le_of_lt_succ (List.mem_range.mp less))
  have short := (List.subperm_of_subset distinct inside).length_le
  rw [List.length_map, List.length_range] at short
  exact Nat.not_succ_le_self _ short

/-- With as much fuel as there are taken names the search always ends at a free name. -/
theorem exists_isFirstFree (taken : List String) (name : String) :
    ∃ count, freshName taken taken.length name = underscored name count ∧
      IsFirstFree taken name count := by
  obtain ⟨count, enough, found, before, ends⟩ := exists_freshName_eq taken taken.length name
  refine ⟨count, found, ?_, before⟩
  rcases ends with free | rfl
  · exact free
  · -- All names before this one are taken, so that the free one among the first is this one.
    obtain ⟨other, other_le, free⟩ := exists_underscored_not_mem taken name
    rcases Nat.lt_or_eq_of_le other_le with less | rfl
    · exact absurd (before other less) free
    · exact free

/-! ## All names -/

/-- A parameter as it is called at the place `index` behind the parameters `earlier`, if `declared`
are the names of all. -/
structure NamedAt (declared : List String) (earlier : List Param) (index : Nat)
    (param : Decl.Param) (own : Param) : Prop where
  type_eq : own.type = param.type
  kept : param.name ≠ "" → own.name = param.name
  synthesised : param.name = "" → ∃ count, own.name = underscored s!"arg{index}" count ∧
    IsFirstFree (declared ++ earlier.map Param.name) s!"arg{index}" count

/-- Parameters are called one after the other, each with those before it in sight. -/
theorem exists_nameParams_eq (declared : List String) (before : List Param) (index : Nat)
    (params : List Decl.Param) :
    ∃ named, nameParams declared before index params = before.reverse ++ named ∧
      named.length = params.length ∧
      ∀ i param own, params[i]? = some param → named[i]? = some own →
        NamedAt declared (before.reverse ++ named.take i) (index + i) param own := by
  induction params generalizing before index with
  | nil => exact ⟨[], by rw [nameParams, List.append_nil], rfl, nofun⟩
  | cons param rest induction =>
      let taken := declared ++ before.map Param.name
      let name :=
        if param.name = "" then freshName taken taken.length s!"arg{index}" else param.name
      let first : Param := ⟨name, param.type⟩
      obtain ⟨named, result, length, each⟩ := induction (first :: before) (index + 1)
      refine ⟨first :: named, ?_, congrArg Nat.succ length, ?_⟩
      · rw [nameParams, result, List.reverse_cons, List.append_assoc]
        rfl
      · intro i other own found own_found
        cases i with
        | zero =>
            obtain rfl : param = other := Option.some.inj found
            obtain rfl : first = own := Option.some.inj own_found
            refine ⟨rfl, fun declared => if_neg declared, fun unnamed => ?_⟩
            obtain ⟨count, fresh, isFree⟩ := exists_isFirstFree taken s!"arg{index}"
            have called : first.name = freshName taken taken.length s!"arg{index}" :=
              if_pos unnamed
            exact ⟨count, called.trans fresh, isFree.congr (by simp [taken])⟩
        | succ i =>
            have later := each i other own found own_found
            rwa [List.reverse_cons, List.append_assoc, Nat.add_right_comm] at later

/-- The parameters `named` are `params` with a name for each of them. -/
structure Completes (params : List Decl.Param) (named : List Param) : Prop where
  length_eq : named.length = params.length
  each : ∀ {i : Nat} {param : Decl.Param} {own : Param}, params[i]? = some param →
    named[i]? = some own → NamedAt (params.map Decl.Param.name) (named.take i) i param own
  /-- No other parameter, before or after it, has the name that is made for a parameter. -/
  fresh : ∀ {i j : Nat} {param : Decl.Param} {own other : Param}, params[i]? = some param →
    param.name = "" → named[i]? = some own → named[j]? = some other → i ≠ j →
      own.name ≠ other.name
  /-- If declared names differ, all names do. -/
  nodup : ((params.map Decl.Param.name).filter (· ≠ "")).Nodup → (named.map Param.name).Nodup

/-- The name that is made for a parameter was not declared and is no name of an earlier one. -/
theorem NamedAt.not_mem {earlier : List Param} {param : Decl.Param} {own : Param}
    (named : NamedAt declared earlier index param own) (unnamed : param.name = "") :
    own.name ∉ declared ∧ own.name ∉ earlier.map Param.name := by
  obtain ⟨count, called, free⟩ := named.synthesised unnamed
  rw [← not_or, ← List.mem_append, called]
  exact free.free

theorem name_mem_take {named : List Param} {i j : Nat} {own : Param} (found : named[i]? = some own)
    (less : i < j) : own.name ∈ (named.take j).map Param.name := by
  have early : (named.take j)[i]? = some own := by rw [List.getElem?_take_of_lt less, found]
  exact List.mem_map_of_mem (List.mem_of_getElem? early)

/-- The parameters of a function all get names, and the names that are made are new. -/
theorem completes_collectParams (params : List Decl.Param) :
    Completes params (collectParams params) := by
  obtain ⟨named, result, length_eq, each⟩ :=
    exists_nameParams_eq (params.map Decl.Param.name) [] 0 params
  rw [List.reverse_nil, List.nil_append] at result
  simp only [List.reverse_nil, List.nil_append, Nat.zero_add] at each
  have fresh {i j : Nat} {param : Decl.Param} {own other : Param} (found : params[i]? = some param)
      (unnamed : param.name = "") (own_found : named[i]? = some own)
      (other_found : named[j]? = some other) (apart : i ≠ j) : own.name ≠ other.name := by
    obtain ⟨undeclared, new⟩ := (each i param own found own_found).not_mem unnamed
    obtain ⟨second, second_found⟩ : ∃ second, params[j]? = some second := by
      have j_lt : j < params.length := length_eq ▸ (List.getElem?_eq_some_iff.mp other_found).1
      exact ⟨_, List.getElem?_eq_getElem j_lt⟩
    have second_named := each j second other second_found other_found
    intro same
    by_cases second_unnamed : second.name = ""
    · -- The later one of the two was made with the earlier one in sight.
      rcases Nat.lt_or_gt_of_ne apart with less | more
      · exact (second_named.not_mem second_unnamed).2 (same ▸ name_mem_take own_found less)
      · exact new (same ▸ name_mem_take other_found more)
    · rw [same, second_named.kept second_unnamed] at undeclared
      exact undeclared (List.mem_map_of_mem (List.mem_of_getElem? second_found))
  rw [collectParams, result]
  refine ⟨length_eq, fun found own_found => each _ _ _ found own_found, fresh, fun distinct => ?_⟩
  have differ := List.pairwise_iff_getElem.mp (List.pairwise_filter.mp distinct)
  refine List.pairwise_iff_getElem.mpr fun i j i_lt j_lt less => ?_
  simp only [List.getElem_map, List.length_map] at differ i_lt j_lt ⊢
  have own_found : named[i]? = some named[i] := List.getElem?_eq_getElem i_lt
  have other_found : named[j]? = some named[j] := List.getElem?_eq_getElem j_lt
  rw [length_eq] at i_lt j_lt
  have found : params[i]? = some params[i] := List.getElem?_eq_getElem i_lt
  have second_found : params[j]? = some params[j] := List.getElem?_eq_getElem j_lt
  by_cases unnamed : params[i].name = ""
  · exact fresh found unnamed own_found other_found (Nat.ne_of_lt less)
  · by_cases second_unnamed : params[j].name = ""
    · exact (fresh second_found second_unnamed other_found own_found (Nat.ne_of_gt less)).symm
    · rw [(each i _ _ found own_found).kept unnamed,
        (each j _ _ second_found other_found).kept second_unnamed]
      exact differ i j i_lt j_lt less (by simpa using unnamed) (by simpa using second_unnamed)

/-- A parameter without a name between two that have the first names it could get. -/
def gridParams : List Decl.Param :=
  [⟨"arg1", .plain "double"⟩, ⟨"", .plain "double"⟩, ⟨"arg1_", .plain "double"⟩]

theorem nodup_gridParams :
    ((gridParams.map Decl.Param.name).filter (· ≠ "")).Nodup ∧
      (collectParams gridParams).map Param.name = ["arg1", "arg1__", "arg1_"] ∧
      ((collectParams gridParams).map Param.name).Nodup :=
  have distinct : ((gridParams.map Decl.Param.name).filter (· ≠ "")).Nodup := by decide
  ⟨distinct, by decide, (completes_collectParams gridParams).nodup distinct⟩

end
end Api
end HeaderBinding
