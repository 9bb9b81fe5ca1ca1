import HeaderBinding.Wrapper.Naming

/-!
# Names of wrapper functions

The name of a wrapper function is made in three steps: characters that an identifier cannot hold are
replaced, a name that is taken is given a prefix, and a digest of the parameter types is appended.
`Signature.ident_eq_iff` says which functions end up with the same name, as long as no two lists of
parameter types have the same digest.
-/

namespace HeaderBinding

namespace Sha1

/-- A digit of lower-case hexadecimal numbers. -/
def isHexDigit (c : Char) : Bool :=
  "0123456789abcdef".toList.contains c

theorem isHexDigit_digitChar : ∀ n < 16, isHexDigit (Nat.digitChar n) := by
  decide

theorem length_bigEndian (count n : Nat) : (bigEndian count n).length = count := by
  simp [bigEndian]

theorem length_digest (message : List UInt8) : (digest message).length = 20 := by
  simp [digest, length_bigEndian]

theorem length_hexDigest (message : List UInt8) : (hexDigest message).length = 40 := by
  have two (byte : UInt8) : (hexByte byte).length = 2 := rfl
  simp [hexDigest, List.length_flatMap, two, List.map_const', length_digest]

theorem isHexDigit_of_mem_hexDigest {message : List UInt8} {c : Char}
    (member : c ∈ hexDigest message) : isHexDigit c := by
  obtain ⟨byte, -, in_byte⟩ := List.mem_flatMap.mp member
  have bound := byte.toNat_lt
  simp only [hexByte, List.mem_cons, List.not_mem_nil, or_false] at in_byte
  rcases in_byte with rfl | rfl
  · exact isHexDigit_digitChar _ (by omega)
  · exact isHexDigit_digitChar _ (by omega)

end Sha1

namespace Wrapper

/-! ## Digests of parameter types -/

theorem length_signatureDigest (spellings : List String) :
    (signatureDigest spellings).toList.length = digestLength := by
  simp [signatureDigest, Sha1.length_hexDigest, digestLength]

theorem isHexDigit_of_mem_signatureDigest {spellings : List String} {c : Char}
    (member : c ∈ (signatureDigest spellings).toList) : Sha1.isHexDigit c := by
  simp only [signatureDigest, String.toList_ofList] at member
  exact Sha1.isHexDigit_of_mem_hexDigest (List.mem_of_mem_take member)

/-- Every spelling is on one line. -/
def OnOneLine (spellings : List String) : Prop :=
  ∀ spelling ∈ spellings, '\n' ∉ spelling.toList

instance (spellings : List String) : Decidable (OnOneLine spellings) :=
  inferInstanceAs (Decidable (∀ spelling ∈ spellings, '\n' ∉ spelling.toList))

/-- The lines of the text of which a digest is taken are the spellings. -/
theorem splitOn_signatureText {spellings : List String} (lines : OnOneLine spellings)
    (filled : spellings ≠ []) :
    (signatureText spellings).toList.splitOn '\n' = spellings.map String.toList := by
  have separator : "\n".toList = ['\n'] := rfl
  rw [signatureText, String.toList_intercalate, separator]
  apply List.splitOn_intercalate
  · simpa [OnOneLine] using lines
  · simpa using filled

theorem signatureText_inj {first second : List String} (first_lines : OnOneLine first)
    (second_lines : OnOneLine second) (first_ne : first ≠ []) (second_ne : second ≠ [])
    (same : signatureText first = signatureText second) : first = second := by
  have same_lines : first.map String.toList = second.map String.toList := by
    rw [← splitOn_signatureText first_lines first_ne, same,
      splitOn_signatureText second_lines second_ne]
  exact (List.map_inj_right fun _ _ => String.toList_inj.mp).mp same_lines

/-- Two lists of spellings with the same digest are spelled by the same text. -/
def ToldApart (first second : List String) : Prop :=
  overloadKey? first = overloadKey? second → signatureText first = signatureText second

instance (first second : List String) : Decidable (ToldApart first second) :=
  inferInstanceAs (Decidable (_ → _))

theorem overloadKey?_of_ne_nil {spellings : List String} (filled : spellings ≠ []) :
    overloadKey? spellings = some (signatureDigest spellings) := by
  simp [overloadKey?, filled]

theorem overloadKey?_eq_none_iff {spellings : List String} :
    overloadKey? spellings = none ↔ spellings = [] := by
  simp [overloadKey?]

theorem eq_nil_iff_of_overloadKey?_eq {first second : List String}
    (same_key : overloadKey? first = overloadKey? second) : first = [] ↔ second = [] := by
  rw [← overloadKey?_eq_none_iff, same_key, overloadKey?_eq_none_iff]

/-- Lists of spellings that are told apart by their digests have the same digest only if they are
the same. -/
theorem overloadKey?_eq_iff {first second : List String} (first_lines : OnOneLine first)
    (second_lines : OnOneLine second) (apart : ToldApart first second) :
    overloadKey? first = overloadKey? second ↔ first = second := by
  constructor
  · intro same_key
    have empty := eq_nil_iff_of_overloadKey?_eq same_key
    by_cases first_nil : first = []
    · rw [first_nil, empty.mp first_nil]
    · exact signatureText_inj first_lines second_lines first_nil (mt empty.mpr first_nil)
        (apart same_key)
  · rintro rfl
    rfl

/-! ## Names with a digest -/

theorem suffixed_nil (name : String) : suffixed name [] = name :=
  rfl

theorem suffixed_of_ne_nil (name : String) {spellings : List String} (filled : spellings ≠ []) :
    suffixed name spellings = name ++ "_" ++ signatureDigest spellings := by
  simp [suffixed, overloadKey?_of_ne_nil filled, toString]

/-- A name with a digest gives both back. -/
theorem suffixed_inj {first second : String} {spellings others : List String}
    (filled : spellings ≠ []) (others_ne : others ≠ [])
    (same : suffixed first spellings = suffixed second others) :
    first = second ∧ signatureDigest spellings = signatureDigest others := by
  rw [suffixed_of_ne_nil first filled, suffixed_of_ne_nil second others_ne,
    ← String.toList_inj] at same
  simp only [String.toList_append, List.append_assoc] at same
  obtain ⟨names, tails⟩ := List.append_inj' same
    (by simp [length_signatureDigest])
  obtain ⟨-, digests⟩ := List.append_inj tails rfl
  exact ⟨String.toList_inj.mp names, String.toList_inj.mp digests⟩

/-- The name ends in an underscore and as many hexadecimal digits as a digest has. -/
def EndsInDigest (name : String) : Prop :=
  name.toList.reverse[digestLength]? = some '_' ∧
    (name.toList.reverse.take digestLength).all Sha1.isHexDigit

instance (name : String) : Decidable (EndsInDigest name) :=
  inferInstanceAs (Decidable (_ ∧ _))

theorem endsInDigest_suffixed (name : String) {spellings : List String} (filled : spellings ≠ []) :
    EndsInDigest (suffixed name spellings) := by
  have length : (signatureDigest spellings).toList.reverse.length = digestLength := by
    simp [length_signatureDigest]
  have backward : (suffixed name spellings).toList.reverse =
      (signatureDigest spellings).toList.reverse ++ '_' :: name.toList.reverse := by
    simp [suffixed_of_ne_nil name filled]
  rw [EndsInDigest, backward]
  constructor
  · rw [← length, List.getElem?_append_right (Nat.le_refl _)]
    simp
  · rw [← length, List.take_left, List.all_eq_true]
    intro c member
    exact isHexDigit_of_mem_signatureDigest (List.mem_reverse.mp member)

/-! ## Names that are kept free -/

/-- The name with the prefix that keeps it apart from a name that is taken. -/
def prefixed (name : String) : String :=
  "native_" ++ name

theorem memberName_of_mem {name : String} (taken : Identifier.safe name ∈ reservedNames) :
    memberName name = prefixed (Identifier.safe name) := by
  simp [memberName, prefixed, toString, taken]

theorem memberName_of_not_mem {name : String} (free : Identifier.safe name ∉ reservedNames) :
    memberName name = Identifier.safe name := by
  simp [memberName, free]

theorem prefixed_inj {first second : String} (same : prefixed first = prefixed second) :
    first = second := by
  rw [prefixed, prefixed, ← String.toList_inj] at same
  simpa [String.toList_inj] using same

theorem prefixed_not_mem_reservedNames : ∀ name ∈ reservedNames, prefixed name ∉ reservedNames := by
  decide

theorem not_endsInDigest_of_mem_reservedNames :
    ∀ name ∈ reservedNames, ¬EndsInDigest name ∧ ¬EndsInDigest (prefixed name) := by
  decide +kernel

theorem memberName_not_mem_reservedNames (name : String) : memberName name ∉ reservedNames := by
  by_cases taken : Identifier.safe name ∈ reservedNames
  · rw [memberName_of_mem taken]
    exact prefixed_not_mem_reservedNames _ taken
  · rwa [memberName_of_not_mem taken]

/-- Two names become the same wrapper name: their characters are the same after replacement, or one
is a name that is kept free and the other is that name with the prefix. -/
def SharesName (first second : String) : Prop :=
  Identifier.safe first = Identifier.safe second ∨
    (Identifier.safe first ∈ reservedNames ∧
      Identifier.safe second = prefixed (Identifier.safe first)) ∨
    (Identifier.safe second ∈ reservedNames ∧
      Identifier.safe first = prefixed (Identifier.safe second))

instance (first second : String) : Decidable (SharesName first second) :=
  inferInstanceAs (Decidable (_ ∨ _))

theorem sharesName_refl (name : String) : SharesName name name :=
  .inl rfl

theorem sharesName_comm {first second : String} :
    SharesName first second ↔ SharesName second first := by
  rw [SharesName, SharesName, eq_comm]
  exact or_congr_right or_comm

private theorem memberName_eq_iff_of_mem {first second : String}
    (taken : Identifier.safe first ∈ reservedNames)
    (free : Identifier.safe second ∉ reservedNames) :
    memberName first = memberName second ↔ SharesName first second := by
  have differ : Identifier.safe first ≠ Identifier.safe second := by
    intro same
    exact free (same ▸ taken)
  rw [memberName_of_mem taken, memberName_of_not_mem free, SharesName]
  simp [taken, free, differ, eq_comm]

theorem memberName_eq_iff (first second : String) :
    memberName first = memberName second ↔ SharesName first second := by
  by_cases first_taken : Identifier.safe first ∈ reservedNames <;>
    by_cases second_taken : Identifier.safe second ∈ reservedNames
  · have apart (name other : String) (taken : Identifier.safe name ∈ reservedNames)
        (other_taken : Identifier.safe other ∈ reservedNames) :
        Identifier.safe name ≠ prefixed (Identifier.safe other) := by
      intro same
      exact prefixed_not_mem_reservedNames _ other_taken (same ▸ taken)
    rw [memberName_of_mem first_taken, memberName_of_mem second_taken, SharesName]
    constructor
    · intro same
      exact .inl (prefixed_inj same)
    · rintro (same | ⟨-, same⟩ | ⟨-, same⟩)
      · rw [same]
      · exact absurd same (apart second first second_taken first_taken)
      · exact absurd same (apart first second first_taken second_taken)
  · exact memberName_eq_iff_of_mem first_taken second_taken
  · rw [eq_comm, sharesName_comm]
    exact memberName_eq_iff_of_mem second_taken first_taken
  · rw [memberName_of_not_mem first_taken, memberName_of_not_mem second_taken, SharesName]
    simp [first_taken, second_taken]

/-- Only a name that is not kept free can look like one with a digest. -/
theorem memberName_eq_iff_of_endsInDigest {name ident : String} (digest : EndsInDigest ident) :
    memberName name = ident ↔ Identifier.safe name = ident := by
  by_cases taken : Identifier.safe name ∈ reservedNames
  · obtain ⟨plain, prefixed_plain⟩ := not_endsInDigest_of_mem_reservedNames _ taken
    rw [memberName_of_mem taken]
    apply iff_of_false
    · rintro rfl
      exact prefixed_plain digest
    · rintro rfl
      exact plain digest
  · rw [memberName_of_not_mem taken]

/-! ## Signatures -/

/-- What the functions of a class are told apart by. -/
structure Signature where
  /-- Name of a method; none for a constructor. -/
  name? : Option String
  /-- The spellings of the parameter types. -/
  spellings : List String
  deriving DecidableEq

namespace Signature

/-- The name of the wrapper function before the digest is appended. -/
def baseName (signature : Signature) : String :=
  match signature.name? with
  | none => constructName
  | some name => memberName name

/-- The name of the wrapper function. -/
def ident (signature : Signature) : String :=
  suffixed signature.baseName signature.spellings

/-- Two methods with the same parameter types become the same wrapper function. -/
def Twins (first second : Signature) : Prop :=
  first.spellings = second.spellings ∧
    ∃ name other, first.name? = some name ∧ second.name? = some other ∧ name ≠ other ∧
      SharesName name other

/-- A method without parameters has the name of the wrapper function of another member. -/
def Impersonates (plain other : Signature) : Prop :=
  plain.spellings = [] ∧ other.spellings ≠ [] ∧
    ∃ name, plain.name? = some name ∧ Identifier.safe name = other.ident

theorem Twins.ne {first second : Signature} (twins : Twins first second) : first ≠ second := by
  rintro rfl
  obtain ⟨-, name, other, first_name, second_name, differ, -⟩ := twins
  exact differ (Option.some.inj (first_name.symm.trans second_name))

theorem Impersonates.ne {plain other : Signature} (impostor : Impersonates plain other) :
    plain ≠ other := by
  rintro rfl
  exact impostor.2.1 impostor.1

theorem baseName_eq_iff (first second : Signature) :
    first.baseName = second.baseName ↔
      first.name? = second.name? ∨ ∃ name other, first.name? = some name ∧
        second.name? = some other ∧ name ≠ other ∧ SharesName name other := by
  have taken : constructName ∈ reservedNames := by
    decide
  have apart (name : String) : memberName name ≠ constructName := by
    intro same
    exact memberName_not_mem_reservedNames name (same ▸ taken)
  cases first_name : first.name? with
  | none =>
      cases second_name : second.name? with
      | none => simp [baseName, first_name, second_name]
      | some other => simp [baseName, first_name, second_name, (apart other).symm]
  | some name =>
      cases second_name : second.name? with
      | none => simp [baseName, first_name, second_name, apart name]
      | some other =>
          simp only [baseName, first_name, second_name, memberName_eq_iff, Option.some.injEq]
          by_cases same : name = other
          · simp [same, sharesName_refl]
          · simp [same]

theorem baseName_eq_ident_iff (plain : Signature) {other : Signature}
    (filled : other.spellings ≠ []) :
    plain.baseName = other.ident ↔
      ∃ name, plain.name? = some name ∧ Identifier.safe name = other.ident := by
  have digest : EndsInDigest other.ident := endsInDigest_suffixed other.baseName filled
  cases plain_name : plain.name? with
  | none =>
      have construct_plain := (not_endsInDigest_of_mem_reservedNames constructName (by decide)).1
      simp only [baseName, plain_name]
      refine iff_of_false ?_ (by simp)
      intro same
      exact construct_plain (same ▸ digest)
  | some name => simp [baseName, plain_name, memberName_eq_iff_of_endsInDigest digest]

theorem eq_or_twins_iff (first second : Signature) :
    first = second ∨ Twins first second ↔
      first.spellings = second.spellings ∧ first.baseName = second.baseName := by
  have fields : first = second ↔
      first.spellings = second.spellings ∧ first.name? = second.name? := by
    cases first
    cases second
    simp [and_comm]
  rw [fields, Twins, baseName_eq_iff, and_or_left]

/-- Two signatures give the same name if and only if they are the same, or their names become the
same, or one name is already the other with the digest appended. That no two lists of parameter
types have the same digest matters only if both have one. -/
theorem ident_eq_iff_of_apart {first second : Signature}
    (apart : first.spellings ≠ [] → second.spellings ≠ [] → first.ident = second.ident →
      first.spellings = second.spellings) :
    first.ident = second.ident ↔
      (first = second ∨ Twins first second) ∨ Impersonates first second ∨
        Impersonates second first := by
  rw [eq_or_twins_iff]
  by_cases first_nil : first.spellings = []
  · by_cases second_nil : second.spellings = []
    · simp [ident, Impersonates, first_nil, second_nil, suffixed_nil]
    · rw [ident, first_nil, suffixed_nil, baseName_eq_ident_iff first second_nil]
      simp [Impersonates, first_nil, second_nil, Ne.symm second_nil]
  · by_cases second_nil : second.spellings = []
    · rw [eq_comm, ident, second_nil, suffixed_nil, baseName_eq_ident_iff second first_nil]
      simp [Impersonates, first_nil, second_nil]
    · have appended : first.ident = second.ident ↔
          first.spellings = second.spellings ∧ first.baseName = second.baseName := by
        constructor
        · intro same
          exact ⟨apart first_nil second_nil same, (suffixed_inj first_nil second_nil same).1⟩
        · rintro ⟨spellings, bases⟩
          rw [ident, ident, spellings, bases]
      simp [appended, Impersonates, first_nil, second_nil]

theorem ident_eq_iff {first second : Signature} (first_lines : OnOneLine first.spellings)
    (second_lines : OnOneLine second.spellings)
    (apart : ToldApart first.spellings second.spellings) :
    first.ident = second.ident ↔
      (first = second ∨ Twins first second) ∨ Impersonates first second ∨
        Impersonates second first := by
  apply ident_eq_iff_of_apart
  intro first_ne second_ne same
  have digests := (suffixed_inj first_ne second_ne same).2
  have same_key : overloadKey? first.spellings = overloadKey? second.spellings := by
    rw [overloadKey?_of_ne_nil first_ne, overloadKey?_of_ne_nil second_ne, digests]
  exact (overloadKey?_eq_iff first_lines second_lines apart).mp same_key

end Signature

end Wrapper
end HeaderBinding
