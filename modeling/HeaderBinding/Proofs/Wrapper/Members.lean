import HeaderBinding.Proofs.Wrapper.Naming
import HeaderBinding.Wrapper.OfClass
import Mathlib.Data.List.Nodup

/-!
# Members of wrapper classes

A wrapper class has the first wrapper function of each name. Unless two members look alike, that is
the first member of each signature, so that only methods that differ in `const` share a wrapper
function and no member with a signature of its own is lost.
-/

namespace HeaderBinding
namespace Wrapper

/-! ## The first item with each key -/

section

variable {Item Source Key Label : Type} [DecidableEq Key]

/-- The first of all items with the same key; `seen` are the keys that are taken. -/
def firstBy (key : Item → Key) (seen : List Key) : List Item → List Item
  | [] => []
  | item :: rest =>
      if key item ∈ seen then firstBy key seen rest
      else item :: firstBy key (key item :: seen) rest

variable {key : Item → Key}

theorem firstBy_map (write : Source → Item) (seen : List Key) (sources : List Source) :
    firstBy key seen (sources.map write) =
      (firstBy (fun source => key (write source)) seen sources).map write := by
  induction sources generalizing seen with
  | nil => rfl
  | cons source rest induction =>
      simp only [List.map_cons, firstBy, induction]
      split <;> rfl

theorem mem_of_mem_firstBy {seen : List Key} {items : List Item} {item : Item}
    (chosen : item ∈ firstBy key seen items) : item ∈ items := by
  induction items generalizing seen with
  | nil => exact chosen
  | cons first rest induction =>
      simp only [firstBy] at chosen
      split at chosen
      · exact List.mem_cons_of_mem first (induction chosen)
      · rcases List.mem_cons.mp chosen with rfl | later
        · exact List.mem_cons_self
        · exact List.mem_cons_of_mem first (induction later)

theorem mem_map_firstBy {seen : List Key} {items : List Item} {wanted : Key} :
    wanted ∈ (firstBy key seen items).map key ↔ wanted ∈ items.map key ∧ wanted ∉ seen := by
  induction items generalizing seen with
  | nil => simp [firstBy]
  | cons item rest induction =>
      simp only [firstBy]
      split
      · rename_i taken
        rw [induction, List.map_cons, List.mem_cons]
        constructor
        · rintro ⟨member, fresh⟩
          exact ⟨.inr member, fresh⟩
        · rintro ⟨rfl | member, fresh⟩
          · exact absurd taken fresh
          · exact ⟨member, fresh⟩
      · rename_i fresh
        simp only [List.map_cons, List.mem_cons, induction]
        by_cases first : wanted = key item
        · simp [first, fresh]
        · simp [first]

theorem nodup_map_firstBy (seen : List Key) (items : List Item) :
    ((firstBy key seen items).map key).Nodup := by
  induction items generalizing seen with
  | nil => simp [firstBy]
  | cons item rest induction =>
      simp only [firstBy]
      split
      · exact induction seen
      · have later : key item ∉ (firstBy key (key item :: seen) rest).map key := by
          simp [mem_map_firstBy]
        exact List.nodup_cons.mpr ⟨later, induction _⟩

theorem firstBy_eq_self {seen : List Key} {items : List Item} (distinct : (items.map key).Nodup)
    (fresh : ∀ item ∈ items, key item ∉ seen) : firstBy key seen items = items := by
  induction items generalizing seen with
  | nil => rfl
  | cons item rest induction =>
      obtain ⟨item_apart, rest_distinct⟩ := List.nodup_cons.mp distinct
      have still_fresh : ∀ later ∈ rest, key later ∉ key item :: seen := by
        intro later member
        rw [List.mem_cons, not_or]
        refine ⟨?_, fresh later (List.mem_cons_of_mem _ member)⟩
        intro same
        exact item_apart (same ▸ List.mem_map_of_mem member)
      rw [firstBy, if_neg (fresh item List.mem_cons_self), induction rest_distinct still_fresh]

/-- Labels that tell the keys of all items apart lead to the same choice as the keys. -/
theorem firstBy_label [DecidableEq Label] {label : Key → Label} {known seen : List Key}
    {items : List Item}
    (faithful : ∀ first ∈ known, ∀ second ∈ known, label first = label second → first = second)
    (seen_known : ∀ taken ∈ seen, taken ∈ known) (items_known : ∀ item ∈ items, key item ∈ known) :
    firstBy (fun item => label (key item)) (seen.map label) items = firstBy key seen items := by
  induction items generalizing seen with
  | nil => rfl
  | cons item rest induction =>
      have item_known := items_known item List.mem_cons_self
      have rest_known : ∀ later ∈ rest, key later ∈ known :=
        fun later member => items_known later (List.mem_cons_of_mem _ member)
      have taken_iff : label (key item) ∈ seen.map label ↔ key item ∈ seen := by
        constructor
        · intro labelled
          obtain ⟨taken, member, same⟩ := List.mem_map.mp labelled
          rwa [← faithful taken (seen_known taken member) (key item) item_known same]
        · exact List.mem_map_of_mem
      have more_known : ∀ taken ∈ key item :: seen, taken ∈ known := by
        simpa [item_known] using seen_known
      simp only [firstBy, taken_iff, induction seen_known rest_known]
      rw [← List.map_cons, induction more_known rest_known]

/-- If the first items with each key have different labels, labels tell the keys of all items
apart. -/
theorem label_faithful_of_nodup {label : Key → Label} {items : List Item}
    (distinct : ((firstBy key [] items).map fun item => label (key item)).Nodup) :
    ∀ first ∈ items.map key, ∀ second ∈ items.map key, label first = label second →
      first = second := by
  have chosen (wanted : Key) (member : wanted ∈ items.map key) :
      ∃ item ∈ firstBy key [] items, key item = wanted := by
    rw [← List.mem_map, mem_map_firstBy]
    exact ⟨member, List.not_mem_nil⟩
  intro first first_mem second second_mem same
  obtain ⟨left, left_mem, rfl⟩ := chosen first first_mem
  obtain ⟨right, right_mem, rfl⟩ := chosen second second_mem
  rw [List.inj_on_of_nodup_map distinct left_mem right_mem same]

theorem firstOfEach_eq_firstBy (seen : List String) (methods : List Method) :
    firstOfEach seen methods = firstBy Method.ident seen methods := by
  induction methods generalizing seen with
  | nil => rfl
  | cons method rest induction =>
      simp [firstOfEach, firstBy, induction]

end

/-! ## Members -/

/-- A member of a class that is wrapped. -/
inductive Member where
  | creator (function : Api.Creator)
  | method (function : Api.Method)

namespace Member

/-- What the member is told apart by. -/
def signature : Member → Signature
  | creator function => ⟨none, spellingsOf function.params⟩
  | method function => ⟨some function.name, spellingsOf function.params⟩

/-- The wrapper function for the member. -/
def wrapped (scope : TypeScope) (model : Api.Class) : Member → Method
  | creator function => ofCreator scope model function
  | method function => ofMethod scope model function

theorem ident_wrapped (scope : TypeScope) (model : Api.Class) (member : Member) :
    (member.wrapped scope model).ident = member.signature.ident := by
  cases member <;> rfl

end Member

/-- The members of a class: constructors first, then methods, in the order of their declarations. -/
def members (model : Api.Class) : List Member :=
  model.creators.map .creator ++ model.methods.map .method

/-- Two members become the same wrapper function although their signatures differ. -/
def HasLookalikes (model : Api.Class) : Prop :=
  ∃ first ∈ members model, ∃ second ∈ members model,
    first.signature.Twins second.signature ∨ first.signature.Impersonates second.signature

section

variable (scope : TypeScope) (family base : String) {model : Api.Class}

theorem map_wrapped_members (model : Api.Class) :
    (members model).map (Member.wrapped scope model) =
      model.creators.map (ofCreator scope model) ++ model.methods.map (ofMethod scope model) := by
  simp [members, Function.comp_def, Member.wrapped]

theorem methods_ofClass (model : Api.Class) :
    (ofClass scope family base model).methods =
      (firstBy (fun member => member.signature.ident) [] (members model)).map
        (Member.wrapped scope model) := by
  simp only [ofClass, ← map_wrapped_members, firstOfEach_eq_firstBy, firstBy_map,
    Member.ident_wrapped]

/-- The names of wrapper functions tell all signatures of a class apart. -/
def NamesFaithful (model : Api.Class) : Prop :=
  ∀ first ∈ (members model).map Member.signature,
    ∀ second ∈ (members model).map Member.signature, first.ident = second.ident → first = second

theorem methods_ofClass_eq_iff_namesFaithful (model : Api.Class) :
    (ofClass scope family base model).methods =
        (firstBy Member.signature [] (members model)).map (Member.wrapped scope model) ↔
      NamesFaithful model := by
  rw [methods_ofClass]
  constructor
  · intro same
    have idents := congrArg (List.map Method.ident) same
    simp only [List.map_map, Function.comp_def, Member.ident_wrapped] at idents
    apply label_faithful_of_nodup
    rw [← idents]
    exact nodup_map_firstBy [] (members model)
  · intro faithful
    have chosen := firstBy_label faithful (List.forall_mem_nil _)
      fun member member_mem => List.mem_map_of_mem member_mem
    rw [← chosen, List.map_nil]

theorem namesFaithful_iff
    (lines : ∀ member ∈ members model, OnOneLine member.signature.spellings)
    (apart : ∀ first ∈ members model, ∀ second ∈ members model,
      ToldApart first.signature.spellings second.signature.spellings) :
    NamesFaithful model ↔ ¬HasLookalikes model := by
  have ident_eq_iff (first : Member) (first_mem : first ∈ members model) (second : Member)
      (second_mem : second ∈ members model) :=
    Signature.ident_eq_iff (lines first first_mem) (lines second second_mem)
      (apart first first_mem second second_mem)
  simp only [NamesFaithful, List.forall_mem_map]
  constructor
  · rintro faithful ⟨first, first_mem, second, second_mem, alike⟩
    have same := (ident_eq_iff first first_mem second second_mem).mpr
      (alike.imp .inr .inl)
    have equal := faithful first first_mem second second_mem same
    rcases alike with twins | impostor
    · exact twins.ne equal
    · exact impostor.ne equal
  · intro none_alike first first_mem second second_mem same
    rcases (ident_eq_iff first first_mem second second_mem).mp same with
      (equal | twins) | impostor | impostor
    · exact equal
    · exact absurd ⟨first, first_mem, second, second_mem, .inl twins⟩ none_alike
    · exact absurd ⟨first, first_mem, second, second_mem, .inr impostor⟩ none_alike
    · exact absurd ⟨second, second_mem, first, first_mem, .inr impostor⟩ none_alike

theorem exists_method_of_name? {member : Member} {name : String}
    (member_mem : member ∈ members model) (named : member.signature.name? = some name) :
    ∃ method ∈ model.methods, method.name = name := by
  cases member with
  | creator function => simp [Member.signature] at named
  | method function =>
      have function_mem : function ∈ model.methods := by
        simpa [members] using member_mem
      exact ⟨function, function_mem, by simpa [Member.signature] using named⟩

/-- No members look alike if no names of methods become the same and none ends like a digest. -/
theorem not_hasLookalikes
    (apart : ∀ first ∈ model.methods, ∀ second ∈ model.methods,
      SharesName first.name second.name → first.name = second.name)
    (plain : ∀ method ∈ model.methods, ¬EndsInDigest (Identifier.safe method.name)) :
    ¬HasLookalikes model := by
  rintro ⟨first, first_mem, second, second_mem, twins | impostor⟩
  · obtain ⟨-, name, other, first_name, second_name, differ, shared⟩ := twins
    obtain ⟨method, method_mem, rfl⟩ := exists_method_of_name? first_mem first_name
    obtain ⟨another, another_mem, rfl⟩ := exists_method_of_name? second_mem second_name
    exact differ (apart method method_mem another another_mem shared)
  · obtain ⟨-, filled, name, first_name, same⟩ := impostor
    obtain ⟨method, method_mem, rfl⟩ := exists_method_of_name? first_mem first_name
    apply plain method method_mem
    rw [same]
    exact endsInDigest_suffixed _ filled

/-- The signatures of a class are distinct if those of its constructors and of its methods are. -/
theorem nodup_signature_members
    (creators : (model.creators.map fun creator => spellingsOf creator.params).Nodup)
    (methods : (model.methods.map fun method =>
      (method.name, spellingsOf method.params)).Nodup) :
    ((members model).map Member.signature).Nodup := by
  have split : (members model).map Member.signature =
      (model.creators.map fun creator => spellingsOf creator.params).map (Signature.mk none) ++
        (model.methods.map fun method => (method.name, spellingsOf method.params)).map
          fun item => ⟨some item.1, item.2⟩ := by
    simp [members, Function.comp_def, Member.signature]
  rw [split, List.nodup_append]
  refine ⟨creators.map fun _ _ => by simp, methods.map ?_, ?_⟩
  · rintro ⟨name, spellings⟩ ⟨other, others⟩ same
    simpa using same
  · simp only [List.forall_mem_map]
    intro creator _ method _
    simp

/-- A wrapper class has the first member of each signature if and only if no members with different
signatures look alike, and then it has all members if their signatures are distinct. -/
theorem methods_ofClass_eq_iff
    (lines : ∀ member ∈ members model, OnOneLine member.signature.spellings)
    (apart : ∀ first ∈ members model, ∀ second ∈ members model,
      ToldApart first.signature.spellings second.signature.spellings) :
    ((ofClass scope family base model).methods =
        (firstBy Member.signature [] (members model)).map (Member.wrapped scope model) ↔
      ¬HasLookalikes model) ∧
    ((model.creators.map fun creator => spellingsOf creator.params).Nodup →
      (model.methods.map fun method => (method.name, spellingsOf method.params)).Nodup →
      ((ofClass scope family base model).methods =
          model.creators.map (ofCreator scope model) ++ model.methods.map (ofMethod scope model) ↔
        ¬HasLookalikes model)) := by
  have chosen := (methods_ofClass_eq_iff_namesFaithful scope family base model).trans
    (namesFaithful_iff lines apart)
  refine ⟨chosen, ?_⟩
  intro creators methods
  have all : firstBy Member.signature [] (members model) = members model :=
    firstBy_eq_self (nodup_signature_members creators methods) fun _ _ => List.not_mem_nil
  rwa [all, map_wrapped_members] at chosen

end

/-! ## Two classes -/

/-- A method without a result. -/
def procedure (name : String) (types : List String) : Api.Method where
  name := name
  result := .plain "void"
  params := types.map fun type => ⟨"value", .plain type⟩

/-- A class with an overloaded method and a method whose name is kept free. -/
def counterClass : Api.Class where
  qualifiedName := "Counter"
  methods := [procedure "add" [], procedure "add" ["int"], procedure "free" []]
  creators := [⟨[], .plain "Counter"⟩, ⟨[⟨"value", .plain "int"⟩], .plain "Counter"⟩]
  isDefinition := true
  isComplete := true

/-- A class with a method that is named as another one is once its name is kept free. -/
def handleClass : Api.Class where
  qualifiedName := "Handle"
  methods := [procedure "get" [], procedure "native_get" []]
  isDefinition := true
  isComplete := true

/-- A scope in which no type is known. -/
def emptyScope : TypeScope :=
  ⟨Registry.empty, ∅⟩

theorem methods_counterClass :
    (ofClass emptyScope "Godot" "RefCounted" counterClass).methods =
      counterClass.creators.map (ofCreator emptyScope counterClass) ++
        counterClass.methods.map (ofMethod emptyScope counterClass) := by
  have lines : ∀ member ∈ members counterClass, OnOneLine member.signature.spellings := by
    decide
  have spelled : ∀ member ∈ members counterClass,
      member.signature.spellings = [] ∨ member.signature.spellings = ["int"] := by
    decide
  have apart : ∀ first ∈ members counterClass, ∀ second ∈ members counterClass,
      ToldApart first.signature.spellings second.signature.spellings := by
    intro first first_mem second second_mem
    rcases spelled first first_mem with first_eq | first_eq <;>
      rcases spelled second second_mem with second_eq | second_eq <;>
        simp [ToldApart, first_eq, second_eq, overloadKey?]
  have none_alike : ¬HasLookalikes counterClass :=
    not_hasLookalikes (by decide) (by decide +kernel)
  have complete := (methods_ofClass_eq_iff emptyScope "Godot" "RefCounted" lines apart).2
  exact (complete (by decide) (by decide)).mpr none_alike

/-- A method with another name is lost. -/
theorem methods_handleClass_ne :
    (∀ member ∈ members handleClass, OnOneLine member.signature.spellings) ∧
      (∀ first ∈ members handleClass, ∀ second ∈ members handleClass,
        ToldApart first.signature.spellings second.signature.spellings) ∧
      (handleClass.creators.map fun creator => spellingsOf creator.params).Nodup ∧
      (handleClass.methods.map fun method => (method.name, spellingsOf method.params)).Nodup ∧
      (ofClass emptyScope "Godot" "RefCounted" handleClass).methods ≠
        handleClass.creators.map (ofCreator emptyScope handleClass) ++
          handleClass.methods.map (ofMethod emptyScope handleClass) := by
  refine ⟨by decide, by decide +kernel, by decide, by decide, ?_⟩
  intro same
  have lengths := congrArg List.length same
  revert lengths
  decide +kernel

end Wrapper
end HeaderBinding
