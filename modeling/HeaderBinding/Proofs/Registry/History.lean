import HeaderBinding.Registry.Discovery
import Mathlib.Data.List.Induction

/-!
# Histories of a name

A name is declared again and again, and each declaration is joined with what is known so far. Here
the outcome is read off the whole history at once: the first record or enum settles the kind, and
without one the known targets do. `foldl_absorb` says that both readings agree, and `find?_addAll`
that the declarations of other names do not matter.
-/

namespace HeaderBinding
namespace Registry

namespace Entry

/-- The two kinds of types that are not other names for a type. -/
inductive TypeKind where
  | record
  | enum
  deriving DecidableEq, Repr

/-- The kind of the type that an entry declares. -/
def typeKind? : Entry → Option TypeKind
  | record _ => some .record
  | enum _ => some .enum
  | synonym _ | scopeAlias _ | mapped _ => none

/-- The enumerators of an enum that lists some. -/
def enumerators? : Entry → Option (List Enumerator)
  | enum enumerators => if enumerators.isEmpty then none else some enumerators
  | _ => none

/-- The entry is another name for a type. -/
def isSynonym : Entry → Bool
  | synonym _ => true
  | _ => false

/-- The known target of another name for a type. -/
def synonymTarget? : Entry → Option String
  | synonym target => target
  | _ => none

/-- The qualified name that a bare name stands for. -/
def scopeTarget? : Entry → Option String
  | scopeAlias qualified => some qualified
  | _ => none

/-- The entry comes from a declaration, not from a mapping of the user. -/
def isDeclared : Entry → Bool
  | mapped _ => false
  | _ => true

/-- The kind that a history settles, which is that of its first record or enum. -/
def leadingKind? (history : List Entry) : Option TypeKind :=
  history.findSome? typeKind?

/-- What the declarations of a name amount to. A record is complete if any of its declarations is
a definition, and an enum has the first enumerators that any of its declarations lists. -/
def settled (history : List Entry) : Option Entry :=
  match leadingKind? history with
  | some .record => some (record (history.contains (record true)))
  | some .enum => some (enum ((history.findSome? enumerators?).getD []))
  | none =>
      if history.any isSynonym then some (synonym (history.findSome? synonymTarget?))
      else (history.findSome? scopeTarget?).map scopeAlias

/-- What is known about a name after a declaration of it. -/
def absorb (known : Option Entry) (entry : Entry) : Option Entry :=
  some ((known.map (·.join entry)).getD entry)

theorem leadingKind?_append (left right : List Entry) :
    leadingKind? (left ++ right) = (leadingKind? left).or (leadingKind? right) :=
  List.findSome?_append

theorem leadingKind?_singleton (entry : Entry) : leadingKind? [entry] = entry.typeKind? :=
  List.findSome?_singleton

theorem enumerators?_ne_nil {entry : Entry} {enumerators : List Enumerator}
    (listed : entry.enumerators? = some enumerators) : enumerators ≠ [] := by
  cases entry with
  | enum present =>
      simp only [enumerators?] at listed
      split at listed <;> simp_all
  | _ => simp [enumerators?] at listed

/-- A history without records and enums has no definition in it. -/
theorem not_mem_record_of_leadingKind?_none {history : List Entry}
    (plain : leadingKind? history = none) (complete : Bool) : record complete ∉ history := by
  intro member
  have kindless := List.findSome?_eq_none_iff.mp plain _ member
  simp [typeKind?] at kindless

theorem findSome?_enumerators?_of_leadingKind?_none {history : List Entry}
    (plain : leadingKind? history = none) : history.findSome? enumerators? = none := by
  rw [List.findSome?_eq_none_iff]
  intro entry member
  have kindless := List.findSome?_eq_none_iff.mp plain _ member
  cases entry <;> simp_all [typeKind?, enumerators?]

private theorem settled_snoc_of_record {history : List Entry}
    (led : leadingKind? history = some .record) (entry : Entry) :
    settled (history ++ [entry]) = absorb (settled history) entry := by
  have leads : leadingKind? (history ++ [entry]) = some .record := by
    simp [leadingKind?_append, led]
  simp only [settled, led, leads]
  cases entry with
  | record complete => cases complete <;> simp [absorb, join]
  | _ => simp [absorb, join]

private theorem settled_snoc_of_enum {history : List Entry}
    (led : leadingKind? history = some .enum) (entry : Entry) :
    settled (history ++ [entry]) = absorb (settled history) entry := by
  have leads : leadingKind? (history ++ [entry]) = some .enum := by
    simp [leadingKind?_append, led]
  simp only [settled, led, leads, List.findSome?_append, List.findSome?_singleton]
  cases entry with
  | enum later =>
      cases listed : history.findSome? enumerators? with
      | none => cases later <;> simp [absorb, join, enumerators?]
      | some current =>
          obtain ⟨earlier, -, found⟩ := List.exists_of_findSome?_eq_some listed
          simp [absorb, join, enumerators?_ne_nil found]
  | _ => simp [absorb, join, enumerators?]

/-- A record or an enum takes the place of anything else. -/
theorem join_eq_right {known new : Entry} (plain : known.typeKind? = none)
    (kind : new.typeKind?.isSome) : known.join new = new := by
  cases known <;> cases new <;> simp_all [typeKind?, join]

theorem settled_of_none {history : List Entry} (plain : leadingKind? history = none) :
    settled history =
      if history.any isSynonym then some (synonym (history.findSome? synonymTarget?))
      else (history.findSome? scopeTarget?).map scopeAlias := by
  simp only [settled, plain]

private theorem absorb_settled_of_none {history : List Entry}
    (plain : leadingKind? history = none) {entry : Entry} (kind : entry.typeKind?.isSome) :
    absorb (settled history) entry = some entry := by
  have synonym_plain (target : Option String) : (synonym target).typeKind? = none := rfl
  have scope_plain (qualified : String) : (scopeAlias qualified).typeKind? = none := rfl
  rw [settled_of_none plain]
  split
  · simp [absorb, join_eq_right (synonym_plain _) kind]
  · cases history.findSome? scopeTarget? with
    | none => rfl
    | some qualified => simp [absorb, join_eq_right (scope_plain qualified) kind]

private theorem findSome?_synonymTarget?_of_not_any {history : List Entry}
    (absent : ¬history.any isSynonym) : history.findSome? synonymTarget? = none := by
  rw [List.findSome?_eq_none_iff]
  intro entry member
  cases entry with
  | synonym target => exact absurd (List.any_eq_true.mpr ⟨_, member, rfl⟩) absent
  | _ => rfl

private theorem settled_snoc_of_none {history : List Entry}
    (plain : leadingKind? history = none) {entry : Entry} (declared : entry.isDeclared) :
    settled (history ++ [entry]) = absorb (settled history) entry := by
  have leads : leadingKind? (history ++ [entry]) = entry.typeKind? := by
    simp [leadingKind?_append, leadingKind?_singleton, plain]
  cases entry with
  | mapped target => simp [isDeclared] at declared
  | record complete =>
      rw [absorb_settled_of_none plain rfl]
      have absent := not_mem_record_of_leadingKind?_none plain true
      cases complete <;> simp [settled, leads, typeKind?, absent]
  | enum enumerators =>
      rw [absorb_settled_of_none plain rfl]
      have unlisted := findSome?_enumerators?_of_leadingKind?_none plain
      cases enumerators <;> simp [settled, leads, typeKind?, unlisted, enumerators?]
  | synonym target =>
      rw [settled_of_none plain, settled_of_none leads]
      by_cases named : history.any isSynonym
      · simp [named, absorb, join, synonymTarget?]
      · have unknown := findSome?_synonymTarget?_of_not_any named
        cases history.findSome? scopeTarget? <;>
          simp [named, unknown, isSynonym, synonymTarget?, absorb, join]
  | scopeAlias qualified =>
      rw [settled_of_none plain, settled_of_none leads]
      by_cases named : history.any isSynonym
      · simp [named, absorb, join, synonymTarget?]
      · cases found : history.findSome? scopeTarget? <;>
          simp [named, found, isSynonym, scopeTarget?, absorb, join]

/-- One declaration more changes the outcome of a history as it changes what is known. -/
theorem settled_snoc (history : List Entry) {entry : Entry} (declared : entry.isDeclared) :
    settled (history ++ [entry]) = absorb (settled history) entry := by
  cases led : leadingKind? history with
  | none => exact settled_snoc_of_none led declared
  | some kind =>
      cases kind with
      | record => exact settled_snoc_of_record led entry
      | enum => exact settled_snoc_of_enum led entry

/-- Taking the declarations of a name in one after the other gives the outcome of the history. -/
theorem foldl_absorb (history : List Entry) (declared : ∀ entry ∈ history, entry.isDeclared) :
    history.foldl absorb none = settled history := by
  induction history using List.reverseRecOn with
  | nil => rfl
  | append_singleton history entry induction =>
      have before : ∀ earlier ∈ history, earlier.isDeclared := by
        intro earlier member
        exact declared earlier (List.mem_append_left _ member)
      rw [List.foldl_append, induction before, settled_snoc history (declared entry (by simp))]
      rfl

theorem isDeclared_of_settled {history : List Entry} {entry : Entry}
    (outcome : settled history = some entry) : entry.isDeclared := by
  simp only [settled] at outcome
  split at outcome
  · cases outcome
    rfl
  · cases outcome
    rfl
  · split at outcome
    · cases outcome
      rfl
    · obtain ⟨qualified, -, rfl⟩ := Option.map_eq_some_iff.mp outcome
      rfl

end Entry

/-! ## Declarations of one name among those of all names -/

/-- The declarations of one name among many, in their order. -/
def declarationsOf (declared : List (String × Entry)) (name : String) : List Entry :=
  (declared.filter fun item => item.1 = name).map Prod.snd

theorem declarationsOf_append (left right : List (String × Entry)) (name : String) :
    declarationsOf (left ++ right) name =
      declarationsOf left name ++ declarationsOf right name := by
  simp [declarationsOf]

theorem declarationsOf_flatMap {α : Type} (items : List α) (declared : α → List (String × Entry))
    (name : String) :
    declarationsOf (items.flatMap declared) name =
      (items.map fun item => declarationsOf (declared item) name).flatten := by
  induction items with
  | nil => rfl
  | cons item items induction => simp [declarationsOf_append, induction]

theorem addAll_append (registry : Registry) (left right : List (String × Entry)) :
    registry.addAll (left ++ right) = (registry.addAll left).addAll right := by
  simp [addAll, List.foldl_append]

/-- What is known about a name depends on its own declarations only. -/
theorem find?_addAll (registry : Registry) (declared : List (String × Entry)) (name : String) :
    (registry.addAll declared).find? name =
      (declarationsOf declared name).foldl Entry.absorb (registry.find? name) := by
  induction declared generalizing registry with
  | nil => rfl
  | cons item declared induction =>
      rw [show registry.addAll (item :: declared) =
        (registry.add item.1 item.2).addAll declared from rfl, induction, find?_add]
      by_cases same : item.1 = name
      · subst same
        simp [declarationsOf, Entry.absorb]
      · simp [declarationsOf, same]

/-- A registry holds one entry for each name. -/
theorem declarationsOf_toList (registry : Registry) (name : String) :
    declarationsOf registry.toList name = (registry.find? name).toList := by
  rw [declarationsOf, toList, NameMap.filter_toList, find?]
  cases registry.entries[name]? <;> rfl

end Registry
end HeaderBinding
