/-!
# Reading decimal integers

An integer is written as an optional sign and at least one ASCII digit, and is read only if it lies
in the range asked for.
-/

namespace HeaderBinding
namespace Text

/-- Largest value of an unsigned 64-bit word. -/
def wordMax : Nat := Nat.pow 2 64 - 1

/-- The integer fits in a signed 64-bit word. -/
def fitsInt64 (value : Int) : Bool :=
  -Int.pow 2 63 ≤ value && value < Int.pow 2 63

/-- The number written by `digits` after one whose value is `value`. -/
def digitsFrom? (value : Nat) : List Char → Option Nat
  | [] => some value
  | c :: rest => if c.isDigit then digitsFrom? (10 * value + (c.toNat - '0'.toNat)) rest else none

/-- The number written by one or more ASCII digits. -/
def digits? (s : List Char) : Option Nat :=
  if s.isEmpty then none else digitsFrom? 0 s

/-- An unsigned 64-bit integer, with an optional plus sign. -/
def readWord? (s : String) : Option Nat :=
  let number := match s.toList with
    | '+' :: rest => digits? rest
    | all => digits? all
  number.filter (· ≤ wordMax)

/-- A signed 64-bit integer, with an optional sign. -/
def readInt64? (s : String) : Option Int :=
  let number : Option Int := match s.toList with
    | '-' :: rest => (digits? rest).map fun n => -(n : Int)
    | '+' :: rest => (digits? rest).map fun n => (n : Int)
    | all => (digits? all).map fun n => (n : Int)
  number.filter fitsInt64

end Text
end HeaderBinding
