import Quiczilla.Foundation.BigEndian

/-!
# SHA-256

The hash of FIPS 180-4 on byte strings, with its digest spelled in lower-case
hexadecimal digits.
-/

namespace Quiczilla.Foundation

namespace Sha256

def roundConstants : List UInt32 :=
  [0x428a2f98, 0x71374491, 0xb5c0fbcf, 0xe9b5dba5,
    0x3956c25b, 0x59f111f1, 0x923f82a4, 0xab1c5ed5,
    0xd807aa98, 0x12835b01, 0x243185be, 0x550c7dc3,
    0x72be5d74, 0x80deb1fe, 0x9bdc06a7, 0xc19bf174,
    0xe49b69c1, 0xefbe4786, 0x0fc19dc6, 0x240ca1cc,
    0x2de92c6f, 0x4a7484aa, 0x5cb0a9dc, 0x76f988da,
    0x983e5152, 0xa831c66d, 0xb00327c8, 0xbf597fc7,
    0xc6e00bf3, 0xd5a79147, 0x06ca6351, 0x14292967,
    0x27b70a85, 0x2e1b2138, 0x4d2c6dfc, 0x53380d13,
    0x650a7354, 0x766a0abb, 0x81c2c92e, 0x92722c85,
    0xa2bfe8a1, 0xa81a664b, 0xc24b8b70, 0xc76c51a3,
    0xd192e819, 0xd6990624, 0xf40e3585, 0x106aa070,
    0x19a4c116, 0x1e376c08, 0x2748774c, 0x34b0bcb5,
    0x391c0cb3, 0x4ed8aa4a, 0x5b9cca4f, 0x682e6ff3,
    0x748f82ee, 0x78a5636f, 0x84c87814, 0x8cc70208,
    0x90befffa, 0xa4506ceb, 0xbef9a3f7, 0xc67178f2]

/-- The eight working variables. -/
structure Words where
  a : UInt32
  b : UInt32
  c : UInt32
  d : UInt32
  e : UInt32
  f : UInt32
  g : UInt32
  h : UInt32
  deriving DecidableEq, Repr

def initialWords : Words where
  a := 0x6a09e667
  b := 0xbb67ae85
  c := 0x3c6ef372
  d := 0xa54ff53a
  e := 0x510e527f
  f := 0x9b05688c
  g := 0x1f83d9ab
  h := 0x5be0cd19

def rotateRight (word amount : UInt32) : UInt32 :=
  (word >>> amount) ||| (word <<< (32 - amount))

def smallSigma0 (word : UInt32) : UInt32 :=
  rotateRight word 7 ^^^ rotateRight word 18 ^^^ (word >>> 3)

def smallSigma1 (word : UInt32) : UInt32 :=
  rotateRight word 17 ^^^ rotateRight word 19 ^^^ (word >>> 10)

def bigSigma0 (word : UInt32) : UInt32 :=
  rotateRight word 2 ^^^ rotateRight word 13 ^^^ rotateRight word 22

def bigSigma1 (word : UInt32) : UInt32 :=
  rotateRight word 6 ^^^ rotateRight word 11 ^^^ rotateRight word 25

/-- The message with its one bit, zeros and 64-bit length. -/
def pad (message : List UInt8) : List UInt8 :=
  message ++ [0x80] ++
    List.replicate ((119 - message.length % 64) % 64) 0 ++
      toBigEndian 8 (8 * message.length)

/-- The big-endian 32-bit words of a block. -/
def words : List UInt8 → List UInt32
  | a :: b :: c :: d :: rest =>
      UInt32.ofNat (ofBigEndian [a, b, c, d]) :: words rest
  | _ => []

/-- Extend a schedule, kept newest word first, by so many words. -/
def extend : Nat → List UInt32 → List UInt32
  | 0, schedule => schedule
  | count + 1, schedule =>
      extend count
        ((smallSigma1 (schedule.getD 1 0) + schedule.getD 6 0 +
            smallSigma0 (schedule.getD 14 0) + schedule.getD 15 0) ::
          schedule)

def schedule (block : List UInt8) : List UInt32 :=
  (extend 48 (words block).reverse).reverse

def round (state : Words) (input : UInt32 × UInt32) : Words :=
  let choice := (state.e &&& state.f) ^^^ (~~~state.e &&& state.g)
  let majority :=
    (state.a &&& state.b) ^^^ (state.a &&& state.c) ^^^
      (state.b &&& state.c)
  let first :=
    state.h + bigSigma1 state.e + choice + input.1 + input.2
  let second := bigSigma0 state.a + majority
  { a := first + second
    b := state.a
    c := state.b
    d := state.c
    e := state.d + first
    f := state.e
    g := state.f
    h := state.g }

def compress (state : Words) (block : List UInt8) : Words :=
  let mixed := (roundConstants.zip (schedule block)).foldl round state
  { a := state.a + mixed.a
    b := state.b + mixed.b
    c := state.c + mixed.c
    d := state.d + mixed.d
    e := state.e + mixed.e
    f := state.f + mixed.f
    g := state.g + mixed.g
    h := state.h + mixed.h }

/-- Compress so many 64-byte blocks. -/
def compressBlocks : Nat → List UInt8 → Words → Words
  | 0, _, state => state
  | count + 1, bytes, state =>
      compressBlocks count (bytes.drop 64)
        (compress state (bytes.take 64))

def Words.toList (state : Words) : List UInt32 :=
  [state.a, state.b, state.c, state.d,
    state.e, state.f, state.g, state.h]

end Sha256

/-- The 32 bytes of the digest. -/
def sha256 (message : List UInt8) : List UInt8 :=
  let padded := Sha256.pad message
  let final :=
    Sha256.compressBlocks (padded.length / 64) padded
      Sha256.initialWords
  final.toList.flatMap fun word => toBigEndian 4 word.toNat

def hexDigit (value : Nat) : Char :=
  if value < 10 then Char.ofNat (48 + value)
  else Char.ofNat (87 + value)

/-- `hex::encode`. -/
def hexEncode (bytes : List UInt8) : String :=
  String.ofList
    (bytes.flatMap fun byte =>
      [hexDigit (byte.toNat / 16), hexDigit (byte.toNat % 16)])

@[irreducible]
def sha256Hex (message : List UInt8) : String :=
  hexEncode (sha256 message)

theorem length_sha256 (message : List UInt8) :
    (sha256 message).length = 32 := by
  simp [sha256, Sha256.Words.toList]

/-- The digest is spelled with 64 digits. -/
theorem length_sha256Hex (message : List UInt8) :
    (sha256Hex message).toList.length = 64 := by
  simp [sha256Hex, hexEncode, List.length_flatMap, length_sha256]

theorem mem_hexEncode
    {bytes : List UInt8} {character : Char}
    (member : character ∈ (hexEncode bytes).toList) :
    ∃ value : Fin 16, character = hexDigit value := by
  rw [hexEncode, String.toList_ofList] at member
  obtain ⟨byte, _, isDigit⟩ := List.mem_flatMap.mp member
  have bound := byte.toNat_lt
  rcases List.mem_cons.mp isDigit with rfl | isLow
  · exact ⟨⟨byte.toNat / 16, by omega⟩, rfl⟩
  · rw [List.mem_singleton.mp isLow]
    exact ⟨⟨byte.toNat % 16, by omega⟩, rfl⟩

/-- The digits of a digest are in lower case. -/
theorem toLower_sha256Hex (message : List UInt8) :
    (sha256Hex message).toList.map Char.toLower =
      (sha256Hex message).toList := by
  have lower :
      ∀ value : Fin 16, (hexDigit value).toLower = hexDigit value := by
    decide
  have fixed :
      ∀ character ∈ (sha256Hex message).toList,
        character.toLower = character := by
    intro character member
    rw [sha256Hex] at member
    obtain ⟨value, rfl⟩ := mem_hexEncode member
    exact lower value
  rw [List.map_congr_left fixed, List.map_id']

end Quiczilla.Foundation
