import PeerProtocol.Bytes

/-!
# SHA3-256

The hash behind the checksum in version 3 onion names: the Keccak permutation of 25 lanes under a
sponge that takes 136 bytes at a time.
-/

namespace PeerProtocol.Sha3

/-- The 25 lanes; the lane in column `x` and row `y` has the index `x + 5 * y`. -/
abbrev Lanes := Array UInt64

/-- The constants that the 24 rounds add to the first lane. -/
def roundConstants : List UInt64 := [
  0x0000000000000001, 0x0000000000008082, 0x800000000000808A, 0x8000000080008000,
  0x000000000000808B, 0x0000000080000001, 0x8000000080008081, 0x8000000000008009,
  0x000000000000008A, 0x0000000000000088, 0x0000000080008009, 0x000000008000000A,
  0x000000008000808B, 0x800000000000008B, 0x8000000000008089, 0x8000000000008003,
  0x8000000000008002, 0x8000000000000080, 0x000000000000800A, 0x800000008000000A,
  0x8000000080008081, 0x8000000000008080, 0x0000000080000001, 0x8000000080008008]

/-- How far each lane is rotated. -/
def rotations : Array UInt64 := #[
  0, 1, 62, 28, 27,
  36, 44, 6, 55, 20,
  3, 10, 43, 25, 39,
  41, 45, 15, 21, 8,
  18, 2, 61, 56, 14]

/-- A lane rotated to the left. -/
def rotateLeft (lane amount : UInt64) : UInt64 :=
  (lane <<< amount) ||| (lane >>> (64 - amount))

/-- The lane in a column and row, both taken modulo five. -/
def lane (lanes : Lanes) (x y : Nat) : UInt64 :=
  lanes.getD (x % 5 + 5 * (y % 5)) 0

/-- Adds to every lane the parities of two neighbouring columns. -/
def theta (lanes : Lanes) : Lanes :=
  let parity : Array UInt64 := Array.ofFn fun (x : Fin 5) =>
    lane lanes x 0 ^^^ lane lanes x 1 ^^^ lane lanes x 2 ^^^ lane lanes x 3 ^^^ lane lanes x 4
  Array.ofFn fun (index : Fin 25) =>
    lanes.getD index 0 ^^^ parity.getD ((index + 4) % 5) 0 ^^^
      rotateLeft (parity.getD ((index + 1) % 5) 0) 1

/-- Rotates every lane and moves it to its new place. -/
def rhoPi (lanes : Lanes) : Lanes :=
  Array.ofFn fun (index : Fin 25) =>
    let x := index.val % 5
    let y := index.val / 5
    let source := (x + 3 * y) % 5 + 5 * x
    rotateLeft (lanes.getD source 0) (rotations.getD source 0)

/-- Combines every lane with the two that follow it in its row. -/
def chi (lanes : Lanes) : Lanes :=
  Array.ofFn fun (index : Fin 25) =>
    let x := index.val % 5
    let y := index.val / 5
    lane lanes x y ^^^ (~~~lane lanes (x + 1) y &&& lane lanes (x + 2) y)

/-- One round of the permutation. -/
def round (lanes : Lanes) (constant : UInt64) : Lanes :=
  (chi (rhoPi (theta lanes))).modify 0 (· ^^^ constant)

/-- The permutation. -/
def permute (lanes : Lanes) : Lanes :=
  roundConstants.foldl round lanes

/-- The number of bytes that the sponge takes at a time. -/
def rate : Nat := 136

/-- The lanes after one block. -/
def absorb (lanes : Lanes) (block : Bytes) : Lanes :=
  permute <| Array.ofFn fun (index : Fin 25) =>
    lanes.getD index 0 ^^^
      UInt64.ofNat (Bytes.ofLittleEndian ((block.drop (8 * index)).take 8))

/-- The lanes after `count` blocks. -/
def absorbBlocks : (count : Nat) → Bytes → Lanes → Lanes
  | 0, _, lanes => lanes
  | count + 1, bytes, lanes =>
      absorbBlocks count (bytes.drop rate) (absorb lanes (bytes.take rate))

/-- What follows a message of a length: the hash's domain bits, zeros, and a set last bit. -/
def padding (length : Nat) : Bytes :=
  match rate - 1 - length % rate with
  | 0 => [0x86]
  | zeros + 1 => 0x06 :: (List.replicate zeros 0 ++ [0x80])

/-- The 32 bytes of a message's hash. -/
def hash (message : Bytes) : Bytes :=
  let padded := message ++ padding message.length
  let lanes := absorbBlocks (padded.length / rate) padded (Array.replicate 25 0)
  [lanes.getD 0 0, lanes.getD 1 0, lanes.getD 2 0, lanes.getD 3 0].flatMap
    fun word => Bytes.littleEndian 8 word.toNat

end PeerProtocol.Sha3
