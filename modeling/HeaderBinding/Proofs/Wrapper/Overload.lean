import HeaderBinding.Proofs.Text.Bytes
import HeaderBinding.Proofs.Wrapper.Naming
import Mathlib.Data.List.Forall2

/-!
# Keys of overloads

The key of a function is cut from the digest of the bytes of its parameter types. Different types
have different bytes, so functions with different types share a key only where the digest itself has
a collision. Main statement: `overloadKey?_tells_apart`.
-/

namespace HeaderBinding

namespace Sha1

/-- Two different messages whose digests begin with the same hexadecimal digits. -/
def Collision (kept : Nat) (message other : List UInt8) : Prop :=
  message ≠ other ∧ (hexDigest message).take kept = (hexDigest other).take kept

end Sha1

/-- The types of two parameters are written alike, whatever the parameters are called and whatever
stands behind the types. -/
def Api.Param.SpelledAlike (param other : Api.Param) : Prop :=
  param.type.spelling = other.type.spelling

namespace Wrapper

open Text (utf8 utf8_append utf8_eq_data utf8_inj)

variable {first second : List String}

/-! ## What a digest is taken of -/

/-- The bytes of spellings in their order, with a line feed between any two. -/
def signatureBytes (spellings : List String) : List UInt8 :=
  [0x0A].intercalate (spellings.map utf8)

theorem utf8_signatureText (spellings : List String) :
    utf8 (signatureText spellings) = signatureBytes spellings := by
  have line_feed : utf8 "\n" = [0x0A] := utf8_eq_data "\n"
  unfold signatureText signatureBytes
  induction spellings with
  | nil => exact utf8_eq_data ""
  | cons spelling rest induction =>
      by_cases last : rest = []
      · simp [last]
      · have more : rest.map utf8 ≠ [] := mt List.map_eq_nil_iff.mp last
        rw [String.intercalate_cons_of_ne_nil last, List.map_cons,
          List.intercalate_cons_of_ne_nil more, utf8_append, utf8_append, line_feed, induction]

/-- Spellings on one line each are told apart by their bytes. There has to be one: no spelling has
the same bytes as one empty spelling. -/
theorem signatureBytes_inj (first_lines : OnOneLine first) (second_lines : OnOneLine second)
    (first_ne : first ≠ []) (second_ne : second ≠ [])
    (same : signatureBytes first = signatureBytes second) : first = second := by
  rw [← utf8_signatureText, ← utf8_signatureText, utf8_inj] at same
  exact signatureText_inj first_lines second_lines first_ne second_ne same

/-- A line feed in a spelling looks like one between two. -/
example : signatureBytes ["Map<\n>"] = signatureBytes ["Map<", ">"] := by
  decide +kernel

theorem signatureDigest_eq (spellings : List String) :
    signatureDigest spellings =
      String.ofList ((Sha1.hexDigest (signatureBytes spellings)).take digestLength) := by
  rw [← utf8_signatureText]
  rfl

example : signatureDigest ["double"] = "bdb36bb2" := by
  decide +kernel

/-! ## What keys are the same -/

/-- Lists of spellings that are not told apart are a collision of the digest. -/
theorem collision_of_not_toldApart (mistaken : ¬ToldApart first second) :
    Sha1.Collision digestLength (signatureBytes first) (signatureBytes second) := by
  obtain ⟨same_key, differ⟩ := Classical.not_imp.mp mistaken
  have empty := eq_nil_iff_of_overloadKey?_eq same_key
  have first_ne : first ≠ [] := by
    intro first_nil
    exact differ (by rw [first_nil, empty.mp first_nil])
  have second_ne : second ≠ [] := mt empty.mpr first_ne
  constructor
  · rwa [← utf8_signatureText, ← utf8_signatureText, Ne, utf8_inj]
  · rw [overloadKey?_of_ne_nil first_ne, overloadKey?_of_ne_nil second_ne, Option.some_inj,
      signatureDigest_eq, signatureDigest_eq, String.ofList_inj] at same_key
    exact same_key

theorem spellingsOf_eq_iff {params others : List Api.Param} :
    spellingsOf params = spellingsOf others ↔
      List.Forall₂ Api.Param.SpelledAlike params others := by
  rw [spellingsOf, spellingsOf, ← List.forall₂_eq_eq_eq, List.forall₂_map_left_iff,
    List.forall₂_map_right_iff]
  rfl

/-- Without parameters there is no key; otherwise it is cut from the digest of the bytes of the
parameter types. The bytes of different lists of types are different, parameters whose types are
written alike give the same key, and other parameters give the same key only where the digest has a
collision. -/
theorem overloadKey?_tells_apart :
    (∀ spellings : List String, overloadKey? spellings =
      if spellings = [] then none
      else some (String.ofList ((Sha1.hexDigest (signatureBytes spellings)).take digestLength))) ∧
    (∀ first second : List String, first ≠ [] → second ≠ [] → OnOneLine first →
      OnOneLine second → first ≠ second → signatureBytes first ≠ signatureBytes second) ∧
    (∀ params others : List Api.Param, List.Forall₂ Api.Param.SpelledAlike params others →
      overloadKey? (spellingsOf params) = overloadKey? (spellingsOf others)) ∧
    ∀ params others : List Api.Param, OnOneLine (spellingsOf params) →
      OnOneLine (spellingsOf others) → ¬List.Forall₂ Api.Param.SpelledAlike params others →
      overloadKey? (spellingsOf params) = overloadKey? (spellingsOf others) →
        Sha1.Collision digestLength (signatureBytes (spellingsOf params))
          (signatureBytes (spellingsOf others)) := by
  refine ⟨?digest, ?bytes, ?alike, ?collision⟩
  case digest =>
    intro spellings
    split
    case isTrue bare => rw [bare, overloadKey?_eq_none_iff]
    case isFalse filled => rw [overloadKey?_of_ne_nil filled, signatureDigest_eq]
  case bytes =>
    intro first second first_ne second_ne first_lines second_lines differ same
    exact differ (signatureBytes_inj first_lines second_lines first_ne second_ne same)
  case alike =>
    intro params others alike
    rw [spellingsOf_eq_iff.mpr alike]
  case collision =>
    intro params others lines other_lines differ same_key
    apply collision_of_not_toldApart
    intro apart
    have same := (overloadKey?_eq_iff lines other_lines apart).mp same_key
    exact differ (spellingsOf_eq_iff.mp same)

/-! ## Matrices with one key -/

/-- The parameters of a function that takes one value. -/
def lone (name : String) (type : TypeRef) : List Api.Param :=
  [⟨name, type⟩]

/-- An empty spelling more makes other bytes, neither names nor aliases change a key, and two types
of matrices have one key because their digests begin alike. -/
theorem overloadKey?_matrices :
    signatureBytes ["int"] ≠ signatureBytes ["int", ""] ∧
      overloadKey? (spellingsOf (lone "x" (.reported "Standard_Real" (some "double")))) =
        overloadKey? (spellingsOf (lone "weight" (.plain "Standard_Real"))) ∧
      overloadKey? (spellingsOf (lone "m" (.plain "Matrix<2540>"))) =
        overloadKey? (spellingsOf (lone "m" (.plain "Matrix<125824>"))) ∧
      Sha1.Collision digestLength
        (signatureBytes (spellingsOf (lone "m" (.plain "Matrix<2540>"))))
        (signatureBytes (spellingsOf (lone "m" (.plain "Matrix<125824>")))) := by
  obtain ⟨-, bytes, alike, collision⟩ := overloadKey?_tells_apart
  have same_key : overloadKey? (spellingsOf (lone "m" (.plain "Matrix<2540>"))) =
      overloadKey? (spellingsOf (lone "m" (.plain "Matrix<125824>"))) := by
    decide +kernel
  refine ⟨bytes _ _ ?_ ?_ ?_ ?_ ?_, alike _ _ (.cons rfl .nil), same_key,
    collision _ _ ?_ ?_ ?apart same_key⟩
  case apart =>
    rw [← spellingsOf_eq_iff]
    decide
  all_goals decide

end Wrapper
end HeaderBinding
