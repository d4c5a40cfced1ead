/-!
# The SHA-256 digest

The digest of a byte string, in three steps:

* `paddedWords` — the message with its padding and length, as 32-bit words;
* `schedule` — the 64 words of one block's message schedule;
* `compress` — one block mixed into the eight-word state.

`digest` runs the blocks in order and writes the final state as 32 bytes.
-/

namespace Roster.Sha256

/-- The eight words of the hash state. -/
structure State where
  a : UInt32
  b : UInt32
  c : UInt32
  d : UInt32
  e : UInt32
  f : UInt32
  g : UInt32
  h : UInt32

/-- The state before the first block. -/
def State.start : State :=
  ⟨0x6a09e667, 0xbb67ae85, 0x3c6ef372, 0xa54ff53a, 0x510e527f, 0x9b05688c, 0x1f83d9ab, 0x5be0cd19⟩

/-- The constants of the 64 rounds. -/
def roundConstants : List UInt32 :=
  [0x428a2f98, 0x71374491, 0xb5c0fbcf, 0xe9b5dba5, 0x3956c25b, 0x59f111f1, 0x923f82a4, 0xab1c5ed5,
   0xd807aa98, 0x12835b01, 0x243185be, 0x550c7dc3, 0x72be5d74, 0x80deb1fe, 0x9bdc06a7, 0xc19bf174,
   0xe49b69c1, 0xefbe4786, 0x0fc19dc6, 0x240ca1cc, 0x2de92c6f, 0x4a7484aa, 0x5cb0a9dc, 0x76f988da,
   0x983e5152, 0xa831c66d, 0xb00327c8, 0xbf597fc7, 0xc6e00bf3, 0xd5a79147, 0x06ca6351, 0x14292967,
   0x27b70a85, 0x2e1b2138, 0x4d2c6dfc, 0x53380d13, 0x650a7354, 0x766a0abb, 0x81c2c92e, 0x92722c85,
   0xa2bfe8a1, 0xa81a664b, 0xc24b8b70, 0xc76c51a3, 0xd192e819, 0xd6990624, 0xf40e3585, 0x106aa070,
   0x19a4c116, 0x1e376c08, 0x2748774c, 0x34b0bcb5, 0x391c0cb3, 0x4ed8aa4a, 0x5b9cca4f, 0x682e6ff3,
   0x748f82ee, 0x78a5636f, 0x84c87814, 0x8cc70208, 0x90befffa, 0xa4506ceb, 0xbef9a3f7, 0xc67178f2]

/-- Rotation to the right. -/
def rotate (word : UInt32) (count : UInt32) : UInt32 :=
  (word >>> count) ||| (word <<< (32 - count))

/-! ## The message -/

/-- Four bytes to a word, the first byte highest. -/
def wordsOfBytes : List UInt8 → List UInt32
  | w :: x :: y :: z :: rest =>
    ((w.toUInt32 <<< 24) ||| (x.toUInt32 <<< 16) ||| (y.toUInt32 <<< 8) ||| z.toUInt32)
      :: wordsOfBytes rest
  | _ => []

/-- The bytes of a word, the first byte highest. -/
def bytesOfWord (word : UInt32) : List UInt8 :=
  [(word >>> 24).toUInt8, (word >>> 16).toUInt8, (word >>> 8).toUInt8, word.toUInt8]

/-- The words of a message: its bytes, one bit, zeros up to eight bytes before
a block's end, and the length in bits. -/
def paddedWords (message : List UInt8) : List UInt32 :=
  let zeros := (119 - message.length % 64) % 64
  let bits := 8 * message.length
  wordsOfBytes (message ++ 0x80 :: List.replicate zeros 0) ++
    [UInt32.ofNat (bits / 4294967296), UInt32.ofNat bits]

/-! ## One block -/

/-- Extends a schedule, held last word first, by a number of words. -/
def extendSchedule : Nat → List UInt32 → List UInt32
  | 0, words => words
  | count + 1, words =>
    let w₂ := words.getD 1 0
    let w₇ := words.getD 6 0
    let w₁₅ := words.getD 14 0
    let w₁₆ := words.getD 15 0
    let s₀ := rotate w₁₅ 7 ^^^ rotate w₁₅ 18 ^^^ (w₁₅ >>> 3)
    let s₁ := rotate w₂ 17 ^^^ rotate w₂ 19 ^^^ (w₂ >>> 10)
    extendSchedule count ((w₁₆ + s₀ + w₇ + s₁) :: words)

/-- The message schedule of a block of sixteen words. -/
def schedule (block : List UInt32) : List UInt32 :=
  (extendSchedule 48 block.reverse).reverse

/-- One round, with its constant and schedule word. -/
def round (s : State) (key : UInt32 × UInt32) : State :=
  let s₁ := rotate s.e 6 ^^^ rotate s.e 11 ^^^ rotate s.e 25
  let choice := (s.e &&& s.f) ^^^ (~~~ s.e &&& s.g)
  let t₁ := s.h + s₁ + choice + key.1 + key.2
  let s₀ := rotate s.a 2 ^^^ rotate s.a 13 ^^^ rotate s.a 22
  let majority := (s.a &&& s.b) ^^^ (s.a &&& s.c) ^^^ (s.b &&& s.c)
  ⟨t₁ + s₀ + majority, s.a, s.b, s.c, s.d + t₁, s.e, s.f, s.g⟩

/-- Mixes one block into the state. -/
def compress (s : State) (block : List UInt32) : State :=
  let t := (roundConstants.zip (schedule block)).foldl round s
  ⟨s.a + t.a, s.b + t.b, s.c + t.c, s.d + t.d, s.e + t.e, s.f + t.f, s.g + t.g, s.h + t.h⟩

/-! ## The digest -/

/-- Mixes the first `count` blocks of a word list into the state. -/
def absorb : Nat → List UInt32 → State → State
  | 0, _, s => s
  | count + 1, words, s => absorb count (words.drop 16) (compress s (words.take 16))

/-- The 32 bytes of the digest. -/
def digest (message : List UInt8) : List UInt8 :=
  let words := paddedWords message
  let s := absorb (words.length / 16) words .start
  [s.a, s.b, s.c, s.d, s.e, s.f, s.g, s.h].flatMap bytesOfWord

end Roster.Sha256
