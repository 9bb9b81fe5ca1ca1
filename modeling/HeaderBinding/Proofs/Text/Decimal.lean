import HeaderBinding.Text.Decimal

/-!
# Decimal numbers

A number written with decimal digits is read back from them.
-/

namespace HeaderBinding
namespace Text

theorem digitsFrom?_eq {s : List Char} (value : Nat) (digits : ∀ c ∈ s, c.isDigit = true) :
    digitsFrom? value s = some (Nat.ofDigitChars 10 s value) := by
  induction s generalizing value with
  | nil => rw [digitsFrom?, Nat.ofDigitChars_nil]
  | cons c rest induction =>
      rw [List.forall_mem_cons] at digits
      rw [digitsFrom?, if_pos digits.1, induction _ digits.2, Nat.ofDigitChars_cons]

theorem digits?_toDigits (number : Nat) : digits? (Nat.toDigits 10 number) = some number := by
  have filled : (Nat.toDigits 10 number).isEmpty = false :=
    List.isEmpty_eq_false_iff.mpr Nat.toDigits_ne_nil
  have digits : ∀ c ∈ Nat.toDigits 10 number, c.isDigit = true := fun c listed =>
    Nat.isDigit_of_mem_toDigits (by decide) (by decide) listed
  rw [digits?, filled, if_neg Bool.false_ne_true, digitsFrom?_eq 0 digits,
    Nat.ofDigitChars_ten_toDigits]

/-- A number that is written without a sign and fits is read back. -/
theorem readWord?_toString {number : Nat} (fits : number ≤ wordMax) :
    readWord? (toString number) = some number := by
  have letters : (toString number).toList = Nat.toDigits 10 number := Nat.toList_repr
  rw [readWord?, letters]
  split
  · rename_i rest signed
    have listed : '+' ∈ Nat.toDigits 10 number := by
      rw [signed]
      exact List.mem_cons_self
    exact absurd (Nat.isDigit_of_mem_toDigits (by decide) (by decide) listed) (by decide)
  · rw [digits?_toDigits, Option.filter_some, if_pos (decide_eq_true fits)]

end Text
end HeaderBinding
