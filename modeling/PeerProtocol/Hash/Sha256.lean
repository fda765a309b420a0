import PeerProtocol.Bytes

/-!
# SHA-256

The hash behind frame checksums. A hasher takes one byte at a time and compresses every block of
64 bytes as soon as it is full, so a long message is never copied; `hash` feeds it the message and
then the padding that ends in the message's length.
-/

namespace PeerProtocol.Sha256

/-- The eight chaining words. -/
structure Words where
  a : UInt32
  b : UInt32
  c : UInt32
  d : UInt32
  e : UInt32
  f : UInt32
  g : UInt32
  h : UInt32

/-- The chaining words before the first block. -/
def Words.initial : Words :=
  ⟨0x6a09e667, 0xbb67ae85, 0x3c6ef372, 0xa54ff53a, 0x510e527f, 0x9b05688c, 0x1f83d9ab, 0x5be0cd19⟩

/-- The 64 round constants. -/
def roundConstants : Array UInt32 := #[
  0x428a2f98, 0x71374491, 0xb5c0fbcf, 0xe9b5dba5, 0x3956c25b, 0x59f111f1, 0x923f82a4, 0xab1c5ed5,
  0xd807aa98, 0x12835b01, 0x243185be, 0x550c7dc3, 0x72be5d74, 0x80deb1fe, 0x9bdc06a7, 0xc19bf174,
  0xe49b69c1, 0xefbe4786, 0x0fc19dc6, 0x240ca1cc, 0x2de92c6f, 0x4a7484aa, 0x5cb0a9dc, 0x76f988da,
  0x983e5152, 0xa831c66d, 0xb00327c8, 0xbf597fc7, 0xc6e00bf3, 0xd5a79147, 0x06ca6351, 0x14292967,
  0x27b70a85, 0x2e1b2138, 0x4d2c6dfc, 0x53380d13, 0x650a7354, 0x766a0abb, 0x81c2c92e, 0x92722c85,
  0xa2bfe8a1, 0xa81a664b, 0xc24b8b70, 0xc76c51a3, 0xd192e819, 0xd6990624, 0xf40e3585, 0x106aa070,
  0x19a4c116, 0x1e376c08, 0x2748774c, 0x34b0bcb5, 0x391c0cb3, 0x4ed8aa4a, 0x5b9cca4f, 0x682e6ff3,
  0x748f82ee, 0x78a5636f, 0x84c87814, 0x8cc70208, 0x90befffa, 0xa4506ceb, 0xbef9a3f7, 0xc67178f2]

/-- A word rotated to the right. -/
@[inline] def rotateRight (word amount : UInt32) : UInt32 :=
  (word >>> amount) ||| (word <<< (32 - amount))

/-- Four bytes of a block as one word. -/
@[inline] def blockWord (block : Array UInt8) (index : Nat) : UInt32 :=
  ((block.getD index 0).toUInt32 <<< 24) ||| ((block.getD (index + 1) 0).toUInt32 <<< 16) |||
    ((block.getD (index + 2) 0).toUInt32 <<< 8) ||| (block.getD (index + 3) 0).toUInt32

/-- The first `count` words of a block, from the word at `index` on. -/
def loadWords (block : Array UInt8) : (count index : Nat) → Array UInt32 → Array UInt32
  | 0, _, words => words
  | count + 1, index, words =>
      loadWords block count (index + 4) (words.push (blockWord block index))

/-- A message schedule extended by `count` words, each from four earlier ones. -/
def extendSchedule : (count : Nat) → Array UInt32 → Array UInt32
  | 0, words => words
  | count + 1, words =>
      let x := words.getD (words.size - 15) 0
      let y := words.getD (words.size - 2) 0
      let small := rotateRight x 7 ^^^ rotateRight x 18 ^^^ (x >>> 3)
      let large := rotateRight y 17 ^^^ rotateRight y 19 ^^^ (y >>> 10)
      let word := words.getD (words.size - 16) 0 + small + words.getD (words.size - 7) 0 + large
      extendSchedule count (words.push word)

/-- The rounds from `index` on, `count` of them. -/
def rounds (schedule : Array UInt32) : (count index : Nat) → Words → Words
  | 0, _, words => words
  | count + 1, index, ⟨a, b, c, d, e, f, g, h⟩ =>
      let mixE := rotateRight e 6 ^^^ rotateRight e 11 ^^^ rotateRight e 25
      let choice := (e &&& f) ^^^ (~~~e &&& g)
      let first := h + mixE + choice + roundConstants.getD index 0 + schedule.getD index 0
      let mixA := rotateRight a 2 ^^^ rotateRight a 13 ^^^ rotateRight a 22
      let majority := (a &&& b) ^^^ (a &&& c) ^^^ (b &&& c)
      rounds schedule count (index + 1)
        ⟨first + (mixA + majority), a, b, c, d + first, e, f, g⟩

/-- The chaining words after one block of 64 bytes. -/
def compress (words : Words) (block : Array UInt8) : Words :=
  let schedule := extendSchedule 48 (loadWords block 16 0 (Array.mkEmpty 64))
  let after := rounds schedule 64 0 words
  ⟨words.a + after.a, words.b + after.b, words.c + after.c, words.d + after.d,
   words.e + after.e, words.f + after.f, words.g + after.g, words.h + after.h⟩

/-- The chaining words and the bytes of the block that is not yet full. -/
structure Hasher where
  words : Words
  block : Array UInt8

/-- A hasher that has seen nothing. -/
def Hasher.initial : Hasher := ⟨Words.initial, Array.mkEmpty 64⟩

/-- A hasher after one more byte. -/
def Hasher.feed (hasher : Hasher) (byte : UInt8) : Hasher :=
  let block := hasher.block.push byte
  if block.size = 64 then ⟨compress hasher.words block, Array.mkEmpty 64⟩
  else ⟨hasher.words, block⟩

/-- What follows a message of a length: a set bit, zeros up to eight bytes before the end of a
block, and the number of bits. -/
def padding (length : Nat) : Bytes :=
  0x80 :: (List.replicate ((119 - length % 64) % 64) 0 ++ Bytes.bigEndian 8 (8 * length))

/-- The chaining words as bytes. -/
def Words.bytes (words : Words) : Bytes :=
  [words.a, words.b, words.c, words.d, words.e, words.f, words.g, words.h].flatMap
    fun word => Bytes.bigEndian 4 word.toNat

/-- The 32 bytes of a message's hash. -/
def hash (message : Bytes) : Bytes :=
  let fed := message.foldl Hasher.feed Hasher.initial
  ((padding message.length).foldl Hasher.feed fed).words.bytes

end PeerProtocol.Sha256

namespace PeerProtocol

/-- The four bytes by which a frame guards its payload: the front of the hash of the hash. -/
def checksum (payload : Bytes) : Bytes :=
  (Sha256.hash (Sha256.hash payload)).take 4

/-- A checksum has four bytes. -/
theorem length_checksum (payload : Bytes) : (checksum payload).length = 4 := by
  simp [checksum, Sha256.hash, Sha256.Words.bytes]

end PeerProtocol
