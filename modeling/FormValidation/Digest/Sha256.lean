/-!
# SHA-256

The digest of a sequence of bytes: eight words, written as 64 digits.
`byteAt` is the padded message, `schedule` the words that a block is stretched to, `round` one of
the 64 rounds, and `Digest.of` the digest.
-/

namespace FormValidation

/-- Eight words: a digest, and the state from which it is computed. -/
structure Digest where
  a : UInt32
  b : UInt32
  c : UInt32
  d : UInt32
  e : UInt32
  f : UInt32
  g : UInt32
  h : UInt32
  deriving DecidableEq

namespace Sha256

/-! ## The padded message -/

/-- A byte of the message behind which a one, zeros, and the number of bits in 64 bits fill up the
last block. -/
def byteAt (content : ByteArray) (blocks i : Nat) : UInt8 :=
  if h : i < content.size then content[i]
  else if i = content.size then 0x80
  else if blocks * 64 ≤ i + 8 then
    UInt8.ofNat ((8 * content.size) >>> (8 * (blocks * 64 - 1 - i)))
  else 0

/-- How many blocks of 64 bytes the padded message has. -/
def blockCount (content : ByteArray) : Nat := (content.size + 8) / 64 + 1

/-- The word at a byte of the padded message. -/
def wordAt (content : ByteArray) (blocks i : Nat) : UInt32 :=
  let byte (j : Nat) : UInt32 := (byteAt content blocks (i + j)).toUInt32
  (byte 0 <<< 24) ||| (byte 1 <<< 16) ||| (byte 2 <<< 8) ||| byte 3

/-- The sixteen words of a block, the last of them first. -/
def blockWords (content : ByteArray) (blocks block : Nat) : List UInt32 :=
  (List.range 16).foldl (fun words j => wordAt content blocks (64 * block + 4 * j) :: words) []

/-! ## Rounds -/

/-- Rotation to the right. -/
def rotate (x n : UInt32) : UInt32 := (x >>> n) ||| (x <<< (32 - n))

/-- The words behind those of a block; the last of the words stands first. -/
def stretch : (more : Nat) → List UInt32 → List UInt32
  | 0, words => words
  | more + 1, words =>
    let near := words.getD 1 0
    let far := words.getD 14 0
    let word := (rotate near 17 ^^^ rotate near 19 ^^^ (near >>> 10)) + words.getD 6 0
      + (rotate far 7 ^^^ rotate far 18 ^^^ (far >>> 3)) + words.getD 15 0
    stretch more (word :: words)

/-- The 64 words of the rounds of a block. -/
def schedule (content : ByteArray) (blocks block : Nat) : List UInt32 :=
  (stretch 48 (blockWords content blocks block)).reverse

/-- The constants of the rounds. -/
def constants : List UInt32 :=
  [0x428a2f98, 0x71374491, 0xb5c0fbcf, 0xe9b5dba5, 0x3956c25b, 0x59f111f1, 0x923f82a4, 0xab1c5ed5,
   0xd807aa98, 0x12835b01, 0x243185be, 0x550c7dc3, 0x72be5d74, 0x80deb1fe, 0x9bdc06a7, 0xc19bf174,
   0xe49b69c1, 0xefbe4786, 0x0fc19dc6, 0x240ca1cc, 0x2de92c6f, 0x4a7484aa, 0x5cb0a9dc, 0x76f988da,
   0x983e5152, 0xa831c66d, 0xb00327c8, 0xbf597fc7, 0xc6e00bf3, 0xd5a79147, 0x06ca6351, 0x14292967,
   0x27b70a85, 0x2e1b2138, 0x4d2c6dfc, 0x53380d13, 0x650a7354, 0x766a0abb, 0x81c2c92e, 0x92722c85,
   0xa2bfe8a1, 0xa81a664b, 0xc24b8b70, 0xc76c51a3, 0xd192e819, 0xd6990624, 0xf40e3585, 0x106aa070,
   0x19a4c116, 0x1e376c08, 0x2748774c, 0x34b0bcb5, 0x391c0cb3, 0x4ed8aa4a, 0x5b9cca4f, 0x682e6ff3,
   0x748f82ee, 0x78a5636f, 0x84c87814, 0x8cc70208, 0x90befffa, 0xa4506ceb, 0xbef9a3f7, 0xc67178f2]

/-- The state before the first block. -/
def start : Digest :=
  ⟨0x6a09e667, 0xbb67ae85, 0x3c6ef372, 0xa54ff53a, 0x510e527f, 0x9b05688c, 0x1f83d9ab, 0x5be0cd19⟩

/-- One round with its constant and its word. -/
def round (s : Digest) (step : UInt32 × UInt32) : Digest :=
  let sigma := rotate s.e 6 ^^^ rotate s.e 11 ^^^ rotate s.e 25
  let choice := (s.e &&& s.f) ^^^ (~~~s.e &&& s.g)
  let first := s.h + sigma + choice + step.1 + step.2
  let sigma := rotate s.a 2 ^^^ rotate s.a 13 ^^^ rotate s.a 22
  let majority := (s.a &&& s.b) ^^^ (s.a &&& s.c) ^^^ (s.b &&& s.c)
  ⟨first + (sigma + majority), s.a, s.b, s.c, s.d + first, s.e, s.f, s.g⟩

/-- The state behind a block with the given words. -/
def compress (s : Digest) (words : List UInt32) : Digest :=
  let t := (constants.zip words).foldl round s
  ⟨s.a + t.a, s.b + t.b, s.c + t.c, s.d + t.d, s.e + t.e, s.f + t.f, s.g + t.g, s.h + t.h⟩

end Sha256

namespace Digest

/-- The digest of a sequence of bytes. -/
def of (content : ByteArray) : Digest :=
  let blocks := Sha256.blockCount content
  (List.range blocks).foldl (fun s block => Sha256.compress s (Sha256.schedule content blocks block))
    Sha256.start

/-- The words of a digest. -/
def words (x : Digest) : List UInt32 := [x.a, x.b, x.c, x.d, x.e, x.f, x.g, x.h]

/-- The eight digits of a word. -/
def wordDigits (word : UInt32) : List Char :=
  let digits := Nat.toDigits 16 word.toNat
  List.replicate (8 - digits.length) '0' ++ digits

/-- The digits of a digest, in lower case. -/
def text (x : Digest) : String := String.ofList (x.words.flatMap wordDigits)

end Digest

end FormValidation
