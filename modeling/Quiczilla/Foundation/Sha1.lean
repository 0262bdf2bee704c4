import Quiczilla.Foundation.Sha256

/-!
# SHA-1

The hash of FIPS 180-4 on byte strings.  Padding and block words are those of
SHA-256.
-/

namespace Quiczilla.Foundation

namespace Sha1

/-- The five working variables. -/
structure Words where
  a : UInt32
  b : UInt32
  c : UInt32
  d : UInt32
  e : UInt32
  deriving DecidableEq, Repr

def initialWords : Words where
  a := 0x67452301
  b := 0xefcdab89
  c := 0x98badcfe
  d := 0x10325476
  e := 0xc3d2e1f0

def rotateLeft (word amount : UInt32) : UInt32 :=
  (word <<< amount) ||| (word >>> (32 - amount))

/-- Extend a schedule, kept newest word first, by so many words. -/
def extend : Nat → List UInt32 → List UInt32
  | 0, schedule => schedule
  | count + 1, schedule =>
      extend count
        (rotateLeft
            (schedule.getD 2 0 ^^^ schedule.getD 7 0 ^^^
              schedule.getD 13 0 ^^^ schedule.getD 15 0) 1 ::
          schedule)

def schedule (block : List UInt8) : List UInt32 :=
  (extend 64 (Sha256.words block).reverse).reverse

/-- The round function and the constant of round number `index`. -/
def roundFunction (index : Nat) (b c d : UInt32) : UInt32 × UInt32 :=
  if index < 20 then ((b &&& c) ||| (~~~b &&& d), 0x5a827999)
  else if index < 40 then (b ^^^ c ^^^ d, 0x6ed9eba1)
  else if index < 60 then
    ((b &&& c) ||| (b &&& d) ||| (c &&& d), 0x8f1bbcdc)
  else (b ^^^ c ^^^ d, 0xca62c1d6)

def round (state : Words) (input : UInt32 × Nat) : Words :=
  let mixed := roundFunction input.2 state.b state.c state.d
  { a := rotateLeft state.a 5 + mixed.1 + state.e + mixed.2 + input.1
    b := state.a
    c := rotateLeft state.b 30
    d := state.c
    e := state.d }

def compress (state : Words) (block : List UInt8) : Words :=
  let mixed := (schedule block).zipIdx.foldl round state
  { a := state.a + mixed.a
    b := state.b + mixed.b
    c := state.c + mixed.c
    d := state.d + mixed.d
    e := state.e + mixed.e }

/-- Compress so many 64-byte blocks. -/
def compressBlocks : Nat → List UInt8 → Words → Words
  | 0, _, state => state
  | count + 1, bytes, state =>
      compressBlocks count (bytes.drop 64)
        (compress state (bytes.take 64))

end Sha1

/-- The 20 bytes of the digest. -/
@[irreducible]
def sha1 (message : List UInt8) : List UInt8 :=
  let padded := Sha256.pad message
  let final :=
    Sha1.compressBlocks (padded.length / 64) padded Sha1.initialWords
  [final.a, final.b, final.c, final.d, final.e].flatMap fun word =>
    toBigEndian 4 word.toNat

end Quiczilla.Foundation
