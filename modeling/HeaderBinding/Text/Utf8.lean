/-!
# Reading damaged UTF-8

`decodeLossy` reads every byte string. Where the bytes are not well-formed UTF-8, each longest
piece that could begin a character, or else one byte, is read as the replacement character.
-/

namespace HeaderBinding
namespace Text

/-- What the first bytes of a character ask for. -/
structure Pending where
  /-- Number of bytes still missing. -/
  missing : Nat
  /-- Least value that the next byte may have. -/
  low : UInt8
  /-- Greatest value that the next byte may have. -/
  high : UInt8
  /-- Bits of the code point read so far. -/
  bits : Nat

/-- How a character may begin. -/
inductive Lead where
  /-- The byte is a whole character. -/
  | whole (c : Char)
  /-- More bytes are needed. -/
  | begins (pending : Pending)
  /-- No character begins with this byte. -/
  | invalid

/-- The role of a byte at the beginning of a character. -/
def lead (b : UInt8) : Lead :=
  let value := b.toNat
  if b < 0x80 then .whole (Char.ofNat value)
  else if b < 0xC2 then .invalid
  else if b < 0xE0 then .begins ⟨1, 0x80, 0xBF, value - 0xC0⟩
  else if b < 0xF0 then
    .begins ⟨2, if b = 0xE0 then 0xA0 else 0x80, if b = 0xED then 0x9F else 0xBF, value - 0xE0⟩
  else if b < 0xF5 then
    .begins ⟨3, if b = 0xF0 then 0x90 else 0x80, if b = 0xF4 then 0x8F else 0xBF, value - 0xF0⟩
  else .invalid

/-- The character that stands for bytes which are no character. -/
def replacement : Char := '\uFFFD'

/-- Read a byte at the beginning of a character: the characters that are read by then, and what is
still asked for. -/
def readFirst (b : UInt8) : List Char × Option Pending :=
  match lead b with
  | .whole c => ([c], none)
  | .begins wanted => ([], some wanted)
  | .invalid => ([replacement], none)

/-- Read a byte that continues the character in `pending` or else begins one. -/
def readByte (pending : Option Pending) (b : UInt8) : List Char × Option Pending :=
  match pending with
  | none => readFirst b
  | some wanted =>
      if wanted.low ≤ b && b ≤ wanted.high then
        let bits := wanted.bits * 64 + (b.toNat - 0x80)
        if wanted.missing ≤ 1 then ([Char.ofNat bits], none)
        else ([], some ⟨wanted.missing - 1, 0x80, 0xBF, bits⟩)
      else
        let (read, wanted) := readFirst b
        (replacement :: read, wanted)

/-- Read bytes, the first of which continue the character in `pending` if there is one. -/
def decodeFrom (pending : Option Pending) : List UInt8 → List Char
  | [] => if pending.isSome then [replacement] else []
  | b :: rest =>
      let (read, wanted) := readByte pending b
      read ++ decodeFrom wanted rest

/-- The text of any byte string. -/
def decodeLossy (bytes : List UInt8) : String :=
  String.ofList (decodeFrom none bytes)

end Text
end HeaderBinding
