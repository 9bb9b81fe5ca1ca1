import HeaderBinding.Json.Number
import HeaderBinding.Json.Value

/-!
# Reading JSON

A strict reader: four characters count as blank, controls must be escaped, escapes of surrogates
must come in pairs, numbers must be finite, and arrays and objects nest at most `maxNesting` deep.
Each part of the reader returns what it has read and the rest of the text.
-/

namespace HeaderBinding
namespace Json

/-- Arrays and objects that stand in one another are at most this many. -/
def maxNesting : Nat := 127

/-- The characters that may stand between tokens. -/
def isGap (c : Char) : Bool :=
  c == ' ' || c == '\t' || c == '\n' || c == '\r'

/-- Drop the blanks before a token. -/
def skipGap (s : List Char) : List Char :=
  s.dropWhile isGap

/-- The value of a hexadecimal digit. -/
def hexDigit? (c : Char) : Option Nat :=
  if c.isDigit then some (c.toNat - '0'.toNat)
  else if 'a' ≤ c ∧ c ≤ 'f' then some (c.toNat - 'a'.toNat + 10)
  else if 'A' ≤ c ∧ c ≤ 'F' then some (c.toNat - 'A'.toNat + 10)
  else none

/-- The number written by four hexadecimal digits. -/
def hexQuad? (a b c d : Char) : Option Nat := do
  let a ← hexDigit? a
  let b ← hexDigit? b
  let c ← hexDigit? c
  let d ← hexDigit? d
  return ((a * 16 + b) * 16 + c) * 16 + d

/-- The character that a one-letter escape stands for. -/
def shortEscape? : Char → Option Char
  | '"' => some '"'
  | '\\' => some '\\'
  | '/' => some '/'
  | 'b' => some '\x08'
  | 'f' => some '\x0C'
  | 'n' => some '\n'
  | 'r' => some '\r'
  | 't' => some '\t'
  | _ => none

/-- The rest of a string after its opening quote; `read` holds its first characters backwards. -/
def stringFrom? (read : List Char) : List Char → Option (String × List Char)
  | [] => none
  | '"' :: rest => some (String.ofList read.reverse, rest)
  | '\\' :: 'u' :: a :: b :: c :: d :: rest =>
      match hexQuad? a b c d with
      | none => none
      | some code =>
          if code < 0xD800 ∨ 0xDFFF < code then stringFrom? (Char.ofNat code :: read) rest
          else if 0xDBFF < code then none
          else
            match rest with
            | '\\' :: 'u' :: e :: f :: g :: h :: rest =>
                match hexQuad? e f g h with
                | none => none
                | some low =>
                    if low < 0xDC00 ∨ 0xDFFF < low then none
                    else
                      let joined := 0x10000 + (code - 0xD800) * 0x400 + (low - 0xDC00)
                      stringFrom? (Char.ofNat joined :: read) rest
            | _ => none
  | '\\' :: c :: rest =>
      match shortEscape? c with
      | none => none
      | some plain => stringFrom? (plain :: read) rest
  | c :: rest => if c.toNat < 0x20 then none else stringFrom? (c :: read) rest

/-- The longest run of digits at the front, as numbers, and the rest. -/
def spanDigits (s : List Char) : List Nat × List Char :=
  ((s.takeWhile Char.isDigit).map fun c => c.toNat - '0'.toNat, s.dropWhile Char.isDigit)

/-- The digits before the decimal point: a lone zero, or a run that does not begin with zero. -/
def whole? (s : List Char) : Option (List Nat × List Char) :=
  match spanDigits s with
  | ([], _) => none
  | (0 :: _ :: _, _) => none
  | digits => some digits

/-- A decimal point and at least one digit, or nothing. -/
def fraction? (s : List Char) : Option (List Nat × List Char) :=
  match s with
  | '.' :: rest =>
      match spanDigits rest with
      | ([], _) => none
      | digits => some digits
  | rest => some ([], rest)

/-- The digits of an exponent after its sign. -/
def exponentDigits? (sign : Int) (s : List Char) : Option (Int × List Char) :=
  match spanDigits s with
  | ([], _) => none
  | (digits, rest) =>
      let size : Nat := digits.foldl (fun value digit => value * 10 + digit) 0
      some (sign * size, rest)

/-- An exponent, or nothing. -/
def exponent? (s : List Char) : Option (Int × List Char) :=
  match s with
  | c :: rest =>
      if c = 'e' ∨ c = 'E' then
        match rest with
        | '+' :: rest => exponentDigits? 1 rest
        | '-' :: rest => exponentDigits? (-1) rest
        | rest => exponentDigits? 1 rest
      else some (0, c :: rest)
  | [] => some (0, [])

/-- The characters that numbers are written with. None of them may follow a number. -/
def isNumeral (c : Char) : Bool :=
  c.isDigit || c == '-' || c == '+' || c == '.' || c == 'e' || c == 'E'

/-- A number, which must be finite. -/
def number? (s : List Char) : Option (Value × List Char) := do
  let written := s.takeWhile isNumeral
  let unsigned := match written with
    | '-' :: rest => rest
    | rest => rest
  let (whole, rest) ← whole? unsigned
  let (fraction, rest) ← fraction? rest
  let (power, rest) ← exponent? rest
  let digits := ((Approx.mk 0 0).addWhole whole).addFraction fraction
  if rest.isEmpty ∧ { digits with exponent := digits.exponent + power }.isFinite then
    return (.number (String.ofList written), s.dropWhile isNumeral)
  else none

mutual

/-- A value and the rest of the text. At most `depth` arrays and objects may stand in one another,
and `fuel` bounds the number of steps. -/
def value? (fuel depth : Nat) (s : List Char) : Option (Value × List Char) :=
  match fuel with
  | 0 => none
  | fuel + 1 =>
      match skipGap s with
      | 'n' :: 'u' :: 'l' :: 'l' :: rest => some (.null, rest)
      | 't' :: 'r' :: 'u' :: 'e' :: rest => some (.bool true, rest)
      | 'f' :: 'a' :: 'l' :: 's' :: 'e' :: rest => some (.bool false, rest)
      | '"' :: rest => (stringFrom? [] rest).map fun (text, rest) => (.string text, rest)
      | '[' :: rest =>
          match depth with
          | 0 => none
          | depth + 1 =>
              match skipGap rest with
              | ']' :: rest => some (.array [], rest)
              | rest => (items? fuel depth rest).map fun (items, rest) => (.array items, rest)
      | '{' :: rest =>
          match depth with
          | 0 => none
          | depth + 1 =>
              match skipGap rest with
              | '}' :: rest => some (.object [], rest)
              | rest =>
                  (members? fuel depth rest).map fun (members, rest) => (.object members, rest)
      | rest => number? rest

/-- The items of an array that is not empty, after its bracket. -/
def items? (fuel depth : Nat) (s : List Char) : Option (List Value × List Char) :=
  match fuel with
  | 0 => none
  | fuel + 1 => do
      let (item, rest) ← value? fuel depth s
      match skipGap rest with
      | ',' :: rest =>
          let (items, rest) ← items? fuel depth rest
          return (item :: items, rest)
      | ']' :: rest => return ([item], rest)
      | _ => none

/-- The members of an object that is not empty, after its brace. -/
def members? (fuel depth : Nat) (s : List Char) : Option (List (String × Value) × List Char) :=
  match fuel with
  | 0 => none
  | fuel + 1 =>
      match skipGap s with
      | '"' :: rest => do
          let (key, rest) ← stringFrom? [] rest
          match skipGap rest with
          | ':' :: rest =>
              let (value, rest) ← value? fuel depth rest
              match skipGap rest with
              | ',' :: rest =>
                  let (members, rest) ← members? fuel depth rest
                  return ((key, value) :: members, rest)
              | '}' :: rest => return ([(key, value)], rest)
              | _ => none
          | _ => none
      | _ => none

end

/-- The value written by a whole text. Every second step takes a character, which bounds the
steps. -/
def document? (text : String) : Option Value :=
  let s := text.toList
  match value? (2 * s.length + 2) maxNesting s with
  | some (value, rest) => if (skipGap rest).isEmpty then some value else none
  | none => none

/-- The value written by UTF-8 bytes. -/
def ofBytes? (bytes : ByteArray) : Option Value :=
  (String.fromUTF8? bytes).bind document?

end Json
end HeaderBinding
