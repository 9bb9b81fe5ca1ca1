/-!
# The digest SHA-1

The digest of a byte string, as the standard defines it: the padded message is taken in blocks of
sixteen words, each of which is mixed into five words in eighty rounds.
-/

namespace HeaderBinding
namespace Sha1

/-- The five words that stand for the blocks taken so far. -/
structure State where
  a : UInt32
  b : UInt32
  c : UInt32
  d : UInt32
  e : UInt32
  deriving DecidableEq, Repr

/-- The words before the first block. -/
def start : State :=
  ⟨0x67452301, 0xEFCDAB89, 0x98BADCFE, 0x10325476, 0xC3D2E1F0⟩

/-- Turn a word left by a number of bits between 1 and 31. -/
def turn (word : UInt32) (bits : UInt32) : UInt32 :=
  (word <<< bits) ||| (word >>> (32 - bits))

/-- The `count` low bytes of a number, the greatest first. -/
def bigEndian (count n : Nat) : List UInt8 :=
  (List.range count).reverse.map fun place => UInt8.ofNat (n / Nat.pow 256 place)

/-- The message with a one bit, zeros and its length in bits, in whole blocks. -/
def padded (message : List UInt8) : List UInt8 :=
  let zeros := (119 - message.length % 64) % 64
  message ++ 0x80 :: List.replicate zeros 0 ++ bigEndian 8 (8 * message.length)

/-- The words of four bytes each. -/
def wordsOf : List UInt8 → List UInt32
  | p :: q :: r :: s :: rest =>
      ((p.toUInt32 <<< 24) ||| (q.toUInt32 <<< 16) ||| (r.toUInt32 <<< 8) ||| s.toUInt32) ::
        wordsOf rest
  | _ => []

/-- The eighty words of a block. -/
def schedule (block : List UInt32) : Array UInt32 :=
  (List.range 64).foldl
    (fun words i =>
      let word (j : Nat) : UInt32 := words.getD j 0
      words.push (turn (word (i + 13) ^^^ word (i + 8) ^^^ word (i + 2) ^^^ word i) 1))
    block.toArray

/-- The choice of bits and the constant of a round. -/
def mix (round : Nat) (s : State) : UInt32 :=
  if round < 20 then ((s.b &&& s.c) ||| ((~~~ s.b) &&& s.d)) + 0x5A827999
  else if round < 40 then (s.b ^^^ s.c ^^^ s.d) + 0x6ED9EBA1
  else if round < 60 then ((s.b &&& s.c) ||| (s.b &&& s.d) ||| (s.c &&& s.d)) + 0x8F1BBCDC
  else (s.b ^^^ s.c ^^^ s.d) + 0xCA62C1D6

/-- Take in one block. -/
def State.absorb (s : State) (block : List UInt32) : State :=
  let words := schedule block
  let mixed := (List.range 80).foldl
    (fun s round =>
      ⟨turn s.a 5 + mix round s + s.e + words.getD round 0, s.a, turn s.b 30, s.c, s.d⟩)
    s
  ⟨s.a + mixed.a, s.b + mixed.b, s.c + mixed.c, s.d + mixed.d, s.e + mixed.e⟩

/-- The digest of a message, as twenty bytes. -/
def digest (message : List UInt8) : List UInt8 :=
  let words := wordsOf (padded message)
  let last := (List.range (words.length / 16)).foldl
    (fun s block => s.absorb ((words.drop (16 * block)).take 16)) start
  [last.a, last.b, last.c, last.d, last.e].flatMap fun word => bigEndian 4 word.toNat

/-- Two lower-case hexadecimal digits of a byte. -/
def hexByte (b : UInt8) : List Char :=
  [Nat.digitChar (b.toNat / 16), Nat.digitChar (b.toNat % 16)]

/-- The digest in lower-case hexadecimal digits. -/
def hexDigest (message : List UInt8) : List Char :=
  (digest message).flatMap hexByte

end Sha1
end HeaderBinding
