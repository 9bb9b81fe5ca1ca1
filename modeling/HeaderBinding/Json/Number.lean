/-!
# Range of JSON numbers

A number is read as a binary number with 53 significant bits, from the digits that fit in a 64-bit
word and a power of ten. A number that this takes beyond the greatest finite one is refused.
-/

namespace HeaderBinding
namespace Json

/-- The number `significand * 10 ^ exponent`. -/
structure Approx where
  significand : Nat
  exponent : Int
  deriving DecidableEq, Repr

namespace Approx

/-- The significand stays below this bound. -/
def bound : Nat := Nat.pow 2 64

/-- Take in the digits before the decimal point. From the first that does not fit on, each only
raises the exponent. -/
def addWhole (number : Approx) : List Nat → Approx
  | [] => number
  | digit :: rest =>
      if number.significand * 10 + digit < bound then
        addWhole { number with significand := number.significand * 10 + digit } rest
      else { number with exponent := number.exponent + (rest.length + 1) }

/-- Take in the digits after the decimal point, up to the first that does not fit. -/
def addFraction (number : Approx) : List Nat → Approx
  | [] => number
  | digit :: rest =>
      if number.significand * 10 + digit < bound then
        addFraction ⟨number.significand * 10 + digit, number.exponent - 1⟩ rest
      else number

end Approx

/-- The number with at most 53 significant bits nearest to `n`, of two the one whose last bit is
zero. -/
def roundToBinary (n : Nat) : Nat :=
  let dropped := n.log2 - 52
  let unit := Nat.pow 2 dropped
  let kept := n / unit
  let rest := 2 * (n % unit)
  if unit < rest ∨ (rest = unit ∧ kept % 2 = 1) then (kept + 1) * unit else kept * unit

/-- The least number that is rounded beyond the greatest finite one. -/
def overflowBound : Nat := Nat.pow 2 1024 - Nat.pow 2 970

/-- Greatest power of ten by which a significand is multiplied. -/
def maxExponent : Nat := 308

/-- Whether the number is read as a finite one. -/
def Approx.isFinite (number : Approx) : Bool :=
  match number.exponent with
  | .negSucc _ => true
  | .ofNat exponent =>
      number.significand == 0 ||
        (exponent ≤ maxExponent &&
          roundToBinary number.significand * roundToBinary (Nat.pow 10 exponent) < overflowBound)

end Json
end HeaderBinding
