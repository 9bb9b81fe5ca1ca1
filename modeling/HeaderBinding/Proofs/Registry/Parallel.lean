import HeaderBinding.Proofs.Registry.Discovery

/-!
# Headers taken in apart

When each header is taken in by itself and the results are merged, a header hands on only what its
own declarations settle. A record declared after an enum of the same name is dropped within its
header, even where another header has settled that the name is a record, and the same goes for an
enum declared after a record. `MergesExactly` says when nothing that counts is dropped in this way.
-/

namespace HeaderBinding
namespace Registry

namespace Entry

private theorem findSome?_flatten {α β : Type} (lists : List (List α)) (choose : α → Option β) :
    lists.flatten.findSome? choose = lists.findSome? fun list => list.findSome? choose := by
  induction lists with
  | nil => rfl
  | cons list lists induction =>
      rw [List.flatten_cons, List.findSome?_append, induction, List.findSome?_cons]
      cases list.findSome? choose <;> rfl

private theorem findSome?_filterMap {α β γ : Type} (items : List α) (view : α → Option β)
    (choose : β → Option γ) :
    (items.filterMap view).findSome? choose = items.findSome? fun item =>
      (view item).bind choose := by
  induction items with
  | nil => rfl
  | cons item items induction =>
      cases seen : view item with
      | none => simp [seen, induction]
      | some value => simp [List.findSome?_cons, seen, induction]

/-! ## What a header hands on -/

theorem typeKind?_settled (history : List Entry) :
    (settled history).bind typeKind? = leadingKind? history := by
  cases led : leadingKind? history with
  | some kind => cases kind <;> simp [settled, led, typeKind?]
  | none =>
      simp only [settled, led]
      split
      · rfl
      · cases history.findSome? scopeTarget? <;> rfl

theorem leadingKind?_flatten (histories : List (List Entry)) :
    leadingKind? histories.flatten = histories.findSome? leadingKind? :=
  findSome?_flatten histories typeKind?

theorem leadingKind?_filterMap_settled (histories : List (List Entry)) :
    leadingKind? (histories.filterMap settled) = histories.findSome? leadingKind? := by
  rw [leadingKind?, findSome?_filterMap]
  simp only [typeKind?_settled]

theorem isDeclared_of_mem_flatten {histories : List (List Entry)}
    (declared : ∀ history ∈ histories, ∀ entry ∈ history, entry.isDeclared) :
    ∀ entry ∈ histories.flatten, entry.isDeclared := by
  intro entry member
  obtain ⟨history, history_mem, entry_mem⟩ := List.mem_flatten.mp member
  exact declared history history_mem entry entry_mem

theorem isDeclared_of_mem_settled {histories : List (List Entry)} {entry : Entry}
    (member : entry ∈ histories.filterMap settled) : entry.isDeclared := by
  obtain ⟨history, -, outcome⟩ := List.mem_filterMap.mp member
  exact isDeclared_of_settled outcome

theorem settled_eq_record_true_iff (history : List Entry) :
    settled history = some (record true) ↔
      leadingKind? history = some .record ∧ record true ∈ history := by
  cases led : leadingKind? history with
  | some kind => cases kind <;> simp [settled, led]
  | none =>
      have handed := typeKind?_settled history
      constructor
      · intro outcome
        simp [outcome, typeKind?, led] at handed
      · rintro ⟨impossible, -⟩
        cases impossible

theorem enumerators?_settled (history : List Entry) :
    (settled history).bind enumerators? =
      if leadingKind? history = some .enum then history.findSome? enumerators? else none := by
  cases led : leadingKind? history with
  | some kind =>
      cases kind with
      | record => simp [settled, led, enumerators?]
      | enum =>
          cases listed : history.findSome? enumerators? with
          | none => simp [settled, led, listed, enumerators?]
          | some enumerators =>
              obtain ⟨entry, -, found⟩ := List.exists_of_findSome?_eq_some listed
              simp [settled, led, listed, enumerators?, enumerators?_ne_nil found]
  | none =>
      simp only [settled, led]
      split
      · rfl
      · cases history.findSome? scopeTarget? <;> rfl

/-! ## Other names for types -/

theorem join_assoc_of_none (known : Entry) {middle last : Entry}
    (middle_declared : middle.isDeclared) (last_declared : last.isDeclared)
    (middle_plain : middle.typeKind? = none)
    (last_plain : last.typeKind? = none) :
    (known.join middle).join last = known.join (middle.join last) := by
  cases middle <;> cases middle_plain <;> cases middle_declared <;>
    cases last <;> cases last_plain <;> cases last_declared <;>
      cases known <;> simp [join, Option.or_assoc]

/-- A history of other names only adds to what is known as the entry does that it settles. -/
theorem foldl_absorb_of_none (known : Option Entry) {history : List Entry}
    (declared : ∀ entry ∈ history, entry.isDeclared) (plain : leadingKind? history = none) :
    history.foldl absorb known = (settled history).toList.foldl absorb known := by
  induction history using List.reverseRecOn with
  | nil => rfl
  | append_singleton history last induction =>
      obtain ⟨before_plain, last_plain⟩ : leadingKind? history = none ∧ last.typeKind? = none := by
        simpa [leadingKind?_append, leadingKind?_singleton] using plain
      have before_declared : ∀ entry ∈ history, entry.isDeclared := by
        intro entry member
        exact declared entry (List.mem_append_left _ member)
      have last_declared : last.isDeclared := declared last (by simp)
      rw [List.foldl_append, induction before_declared before_plain,
        settled_snoc history last_declared]
      cases outcome : settled history with
      | none => rfl
      | some middle =>
          have middle_plain : middle.typeKind? = none := by
            simpa [outcome, before_plain] using typeKind?_settled history
          have regroup (known : Entry) :=
            join_assoc_of_none known (isDeclared_of_settled outcome) last_declared
              middle_plain last_plain
          cases known <;> simp [absorb, regroup]

private theorem settled_flatten_of_none {histories : List (List Entry)}
    (declared : ∀ history ∈ histories, ∀ entry ∈ history, entry.isDeclared)
    (plain : ∀ history ∈ histories, leadingKind? history = none) :
    settled histories.flatten = settled (histories.filterMap settled) := by
  have folds (known : Option Entry) : histories.flatten.foldl absorb known =
      (histories.filterMap settled).foldl absorb known := by
    induction histories generalizing known with
    | nil => rfl
    | cons history histories induction =>
        rw [List.forall_mem_cons] at declared plain
        rw [List.flatten_cons, List.foldl_append, induction declared.2 plain.2,
          foldl_absorb_of_none known declared.1 plain.1]
        cases outcome : settled history <;> simp [outcome]
  rw [← foldl_absorb _ (isDeclared_of_mem_flatten declared),
    ← foldl_absorb _ fun entry => isDeclared_of_mem_settled, folds]

/-! ## What is dropped -/

/-- Taking headers in apart drops nothing that counts about a name, whose declarations in the single
headers are given. If the name is a record and some header defines it, then some header does so
that does not declare an enum first; if the name is an enum, then the first enumerators that any
header lists are also the first among the headers that do not declare a record first. -/
def MergesExactly (histories : List (List Entry)) : Prop :=
  (histories.findSome? leadingKind? = some .record →
    (∃ history ∈ histories, record true ∈ history) →
      ∃ history ∈ histories, leadingKind? history = some .record ∧ record true ∈ history) ∧
  (histories.findSome? leadingKind? = some .enum →
    histories.findSome? (·.findSome? enumerators?) =
      (histories.filter fun history => leadingKind? history = some .enum).findSome?
        (·.findSome? enumerators?))

private theorem settled_flatten_of_record {histories : List (List Entry)}
    (led : histories.findSome? leadingKind? = some .record) :
    settled histories.flatten = settled (histories.filterMap settled) ↔
      MergesExactly histories := by
  have whole := (leadingKind?_flatten histories).trans led
  have parts := (leadingKind?_filterMap_settled histories).trans led
  have defined : record true ∈ histories.flatten ↔
      ∃ history ∈ histories, record true ∈ history := by
    simp
  have handed : record true ∈ histories.filterMap settled ↔
      ∃ history ∈ histories, leadingKind? history = some .record ∧ record true ∈ history := by
    simp only [List.mem_filterMap, settled_eq_record_true_iff]
  have kept : record true ∈ histories.filterMap settled → record true ∈ histories.flatten := by
    rw [handed, defined]
    rintro ⟨history, member, -, definition⟩
    exact ⟨history, member, definition⟩
  calc
    settled histories.flatten = settled (histories.filterMap settled) ↔
        (record true ∈ histories.flatten ↔ record true ∈ histories.filterMap settled) := by
      simp only [settled, whole, parts, Option.some.injEq, record.injEq]
      rw [Bool.eq_iff_iff, List.contains_iff_mem, List.contains_iff_mem]
    _ ↔ (record true ∈ histories.flatten → record true ∈ histories.filterMap settled) :=
      ⟨Iff.mp, fun handsOn => ⟨handsOn, kept⟩⟩
    _ ↔ MergesExactly histories := by
      rw [defined, handed, MergesExactly, led]
      simp

/-- Listed enumerators are never none at all. -/
private theorem getD_enumerators?_injective {left right : List Entry}
    (same : (left.findSome? enumerators?).getD [] = (right.findSome? enumerators?).getD []) :
    left.findSome? enumerators? = right.findSome? enumerators? := by
  have listed (history : List Entry) : history.findSome? enumerators? ≠ some [] := by
    intro empty
    obtain ⟨entry, -, found⟩ := List.exists_of_findSome?_eq_some empty
    exact enumerators?_ne_nil found rfl
  have left_listed := listed left
  have right_listed := listed right
  cases left_eq : left.findSome? enumerators? <;>
    cases right_eq : right.findSome? enumerators? <;> simp_all

private theorem settled_flatten_of_enum {histories : List (List Entry)}
    (led : histories.findSome? leadingKind? = some .enum) :
    settled histories.flatten = settled (histories.filterMap settled) ↔
      MergesExactly histories := by
  have whole := (leadingKind?_flatten histories).trans led
  have parts := (leadingKind?_filterMap_settled histories).trans led
  have handed : (histories.filterMap settled).findSome? enumerators? =
      (histories.filter fun history => leadingKind? history = some .enum).findSome?
        (·.findSome? enumerators?) := by
    rw [findSome?_filterMap]
    simp only [enumerators?_settled, ← List.filterMap_eq_filter, findSome?_filterMap]
    congr 1
    funext history
    by_cases leads : leadingKind? history = some .enum <;> simp [leads, Option.guard]
  calc
    settled histories.flatten = settled (histories.filterMap settled) ↔
        (histories.flatten.findSome? enumerators?).getD [] =
          ((histories.filterMap settled).findSome? enumerators?).getD [] := by
      simp only [settled, whole, parts, Option.some.injEq, enum.injEq]
    _ ↔ histories.flatten.findSome? enumerators? =
          (histories.filterMap settled).findSome? enumerators? :=
      ⟨getD_enumerators?_injective, fun same => by rw [same]⟩
    _ ↔ MergesExactly histories := by
      rw [findSome?_flatten, handed, MergesExactly, led]
      simp

instance (histories : List (List Entry)) : Decidable (MergesExactly histories) :=
  inferInstanceAs (Decidable (_ ∧ _))

/-- The entries that the headers hand on settle the same as all declarations if and only if nothing
that counts is dropped. -/
theorem settled_filterMap_eq_iff {histories : List (List Entry)}
    (declared : ∀ history ∈ histories, ∀ entry ∈ history, entry.isDeclared) :
    settled (histories.filterMap settled) = settled histories.flatten ↔
      MergesExactly histories := by
  rw [eq_comm]
  cases led : histories.findSome? leadingKind? with
  | some kind =>
      cases kind with
      | record => exact settled_flatten_of_record led
      | enum => exact settled_flatten_of_enum led
  | none =>
      have plain := List.findSome?_eq_none_iff.mp led
      simp [settled_flatten_of_none declared plain, MergesExactly, led]

theorem settled_eq_none_iff {history : List Entry}
    (declared : ∀ entry ∈ history, entry.isDeclared) : settled history = none ↔ history = [] := by
  cases history using List.reverseRecOn with
  | nil => simp [settled, leadingKind?]
  | append_singleton history last =>
      rw [settled_snoc history (declared last (by simp))]
      simp [absorb]

/-- Some header hands an entry on if and only if some header declares the name. -/
theorem settled_filterMap_eq_none_iff {histories : List (List Entry)}
    (declared : ∀ history ∈ histories, ∀ entry ∈ history, entry.isDeclared) :
    settled (histories.filterMap settled) = none ↔ settled histories.flatten = none := by
  rw [settled_eq_none_iff fun entry => isDeclared_of_mem_settled,
    settled_eq_none_iff (isDeclared_of_mem_flatten declared), List.filterMap_eq_nil_iff,
    List.flatten_eq_nil_iff]
  constructor
  · intro silent history member
    exact (settled_eq_none_iff (declared history member)).mp (silent history member)
  · intro silent history member
    exact (settled_eq_none_iff (declared history member)).mpr (silent history member)

end Entry

/-! ## Registries of headers taken in apart -/

open Decl

/-- The declarations of a name, header by header. -/
def historiesOf (trees : List Tree) (name : String) : List (List Entry) :=
  trees.map fun tree => declarationsOf tree.declared name

theorem isDeclared_of_mem_historiesOf (trees : List Tree) (name : String) :
    ∀ history ∈ historiesOf trees name, ∀ entry ∈ history, entry.isDeclared := by
  intro history history_mem entry entry_mem
  have declared : entry ∈ declarationsOf (trees.flatMap Tree.declared) name := by
    rw [declarationsOf_flatMap]
    exact List.mem_flatten.mpr ⟨history, history_mem, entry_mem⟩
  exact isDeclared_of_mem_declarationsOf declared

theorem find?_foldl_merge (registry : Registry) (others : List Registry) (name : String) :
    (others.foldl merge registry).find? name =
      (others.filterMap fun other => other.find? name).foldl Entry.absorb
        (registry.find? name) := by
  induction others generalizing registry with
  | nil => rfl
  | cons other others induction =>
      rw [List.foldl_cons, induction, merge, find?_addAll, declarationsOf_toList]
      cases known : other.find? name <;> simp [known]

/-- The merged headers settle a name by the entries that the single headers settle. -/
theorem find?_foldl_merge_addTree (trees : List Tree) (name : String) :
    ((trees.map empty.addTree).foldl merge empty).find? name =
      Entry.settled ((historiesOf trees name).filterMap Entry.settled) := by
  have alone (tree : Tree) : (empty.addTree tree).find? name =
      Entry.settled (declarationsOf tree.declared name) := by
    simpa using find?_foldl_addTree [tree] name
  rw [find?_foldl_merge, find?_empty, ← Entry.foldl_absorb _ fun _ =>
    Entry.isDeclared_of_mem_settled]
  simp only [historiesOf, List.filterMap_map, Function.comp_def, alone]

private theorem or_inj {left right first second : Option Entry}
    (silent : left = none ↔ right = none) :
    (left.or first).or second = (right.or first).or second ↔ left = right := by
  cases left <;> cases right <;> simp_all

theorem find?_discoverParallel_eq_iff (trees : List Tree) (overrides : OverrideTable)
    (name : String) :
    (discoverParallel trees overrides).find? name = (discover trees overrides).find? name ↔
      Entry.MergesExactly (historiesOf trees name) := by
  have declared := isDeclared_of_mem_historiesOf trees name
  have silent := Entry.settled_filterMap_eq_none_iff declared
  rw [← Entry.settled_filterMap_eq_iff declared, discoverParallel, discover, find?_finish,
    find?_finish, find?_foldl_merge_addTree, find?_foldl_addTree, declarationsOf_flatMap]
  exact or_inj silent

/-- Headers taken in apart give the registry of headers taken in one after the other if and only
if, for no name, a definition or the enumerators of a type are dropped within a header that first
declares the name as a type of the other kind. -/
theorem discoverParallel_eq_discover_iff (trees : List Tree) (overrides : OverrideTable) :
    discoverParallel trees overrides = discover trees overrides ↔
      ∀ name, Entry.MergesExactly (historiesOf trees name) := by
  simp only [← find?_discoverParallel_eq_iff trees overrides]
  exact ⟨fun same name => by rw [same], ext_find?⟩

/-- A header with a forward declaration of the class `X`. -/
def forwardHeader : Tree :=
  Tree.empty.push Tree.root { kind := .classType, name := "X" }

/-- A header with an enum `X` in an unnamed namespace, followed by a class `X` with a body. -/
def shadowingHeader : Tree :=
  let unnamed := Tree.empty.push Tree.root { kind := .namespaceScope }
  let withEnum := unnamed.push 1 { kind := .enum, name := "X" }
  withEnum.push Tree.root { kind := .classType, name := "X", flags := { definition := true } }

/-- The definition of `X` is dropped within the second header if headers are taken in apart. -/
theorem discoverParallel_ne_discover :
    discoverParallel [forwardHeader, shadowingHeader] ∅ ≠
      discover [forwardHeader, shadowingHeader] ∅ := by
  intro same
  have exact := (find?_discoverParallel_eq_iff [forwardHeader, shadowingHeader] ∅ "X").mp
    (by rw [same])
  revert exact
  decide +kernel

end Registry
end HeaderBinding
