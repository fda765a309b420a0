import PeerProtocol.Error

/-!
# CompactSize numbers

The counts and lengths inside payloads: a number below 253 is one byte, a larger one is a marker
byte followed by two, four or eight little-endian bytes. Writing always takes the shortest form
(`length_encode`); reading accepts longer forms as well.
-/

namespace PeerProtocol

open Bytes

/-- The number in exactly `width` little-endian bytes, and what follows them. -/
def readLittleEndian (field : Field) (width : Nat) (bytes : Bytes) :
    Except CodecError (Nat × Bytes) :=
  match bytes.split? width with
  | none => .error (.truncated field)
  | some (front, rest) => .ok (ofLittleEndian front, rest)

/-- The number in exactly `width` big-endian bytes, and what follows them. -/
def readBigEndian (field : Field) (width : Nat) (bytes : Bytes) :
    Except CodecError (Nat × Bytes) :=
  match bytes.split? width with
  | none => .error (.truncated field)
  | some (front, rest) => .ok (ofBigEndian front, rest)

namespace CompactSize

/-- The shortest form of a number. -/
def encode (value : UInt64) : Bytes :=
  if value.toNat < 0xFD then [UInt8.ofNat value.toNat]
  else if value.toNat < 0x10000 then 0xFD :: littleEndian 2 value.toNat
  else if value.toNat < 0x100000000 then 0xFE :: littleEndian 4 value.toNat
  else 0xFF :: littleEndian 8 value.toNat

/-- The number of bytes of the shortest form. -/
def size (value : UInt64) : Nat :=
  if value.toNat < 0xFD then 1
  else if value.toNat < 0x10000 then 3
  else if value.toNat < 0x100000000 then 5
  else 9

/-- The number that follows a marker in a fixed width. -/
def decodeFixed (field : Field) (width : Nat) (bytes : Bytes) :
    Except CodecError (UInt64 × Bytes) := do
  let (value, rest) ← readLittleEndian field width bytes
  pure (UInt64.ofNat value, rest)

/-- The number at the front of a byte string in any of its forms, and what follows it. -/
def decode : Bytes → Except CodecError (UInt64 × Bytes)
  | [] => .error (.truncated .compactSize)
  | marker :: rest =>
      if marker = 0xFD then decodeFixed .compactSize16 2 rest
      else if marker = 0xFE then decodeFixed .compactSize32 4 rest
      else if marker = 0xFF then decodeFixed .compactSize64 8 rest
      else .ok (UInt64.ofNat marker.toNat, rest)

/-- `size` is the length of what `encode` writes. -/
theorem length_encode (value : UInt64) : (encode value).length = size value := by
  simp only [encode, size]
  split
  · rfl
  · split
    · simp
    · split <;> simp

end CompactSize

end PeerProtocol
