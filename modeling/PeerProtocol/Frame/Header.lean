import PeerProtocol.Encoding
import PeerProtocol.Hash.Sha256
import PeerProtocol.Text.Utf8

/-!
# Frame headers

The twenty bytes between the magic and the payload: the command's name in twelve bytes filled up
with zeros, the payload's size as a signed little-endian number, and the payload's checksum.
-/

namespace PeerProtocol

open Bytes

/-- A frame's header. -/
structure Header where
  command : String
  size : Nat
  checksum : Bytes
deriving DecidableEq

namespace Header

/-- The number of bytes of a header. -/
def length : Nat := 20

/-- The number of bytes of the name. -/
def nameLength : Nat := 12

/-- A signed number of four bytes. -/
def signed32 (value : Nat) : Int :=
  if value < 0x80000000 then value else (value : Int) - 0x100000000

/-- The header at the front of a byte string. -/
def decode (bytes : Bytes) : Except CodecError Header :=
  match bytes.split? length with
  | none => .error (.truncated .header)
  | some (header, _) =>
    let name := (header.take nameLength).takeWhile (· ≠ 0)
    match Text.ofUtf8? name with
    | none => .error (.invalidCommand (Text.hex name))
    | some command =>
      let size := signed32 (ofLittleEndian ((header.drop nameLength).take 4))
      if size < 0 ∨ (maxMessageSize : Int) < size then .error (.headerSize size)
      else .ok ⟨command, size.toNat, header.drop (nameLength + 4)⟩

/-- The header for a payload under a command's name. -/
def encode (name : Bytes) (payload : Bytes) : Bytes :=
  name ++ List.replicate (nameLength - name.length) 0 ++ littleEndian 4 payload.length ++
    PeerProtocol.checksum payload

/-- A header has twenty bytes if the name fits. -/
theorem length_encode {name : Bytes} (h : name.length ≤ nameLength) (payload : Bytes) :
    (encode name payload).length = length := by
  simp only [encode, List.length_append, List.length_replicate, length_littleEndian,
    length_checksum, nameLength, length] at h ⊢
  omega

end Header

end PeerProtocol
