import PeerProtocol.Error
import PeerProtocol.Hash.Sha3
import PeerProtocol.Text.Base32

/-!
# Onion names

Names of hidden services: a base32 label before `.onion`. A label of 16 symbols is the ten-byte key
of a version 2 service; one of 56 symbols is the 32-byte key of a version 3 service, followed by
two checksum bytes and the version byte. Case does not matter when reading, and names are written
in lower case.
-/

namespace PeerProtocol

/-- The key of a hidden service. -/
inductive OnionKey where
  | v2 (key : Octets 10)
  | v3 (key : Octets 32)
deriving DecidableEq

namespace OnionKey

/-- The last characters of every name. -/
def suffix : List Char := ['.', 'o', 'n', 'i', 'o', 'n']

/-- The byte that ends a version 3 label. -/
def versionByte : UInt8 := 3

/-- The text before a version 3 key in what is hashed for its checksum. -/
def checksumDomain : Bytes :=
  [0x2E, 0x6F, 0x6E, 0x69, 0x6F, 0x6E, 0x20, 0x63, 0x68, 0x65, 0x63, 0x6B, 0x73, 0x75, 0x6D]

/-- The two checksum bytes of a version 3 key. -/
def checksum (key : Bytes) : Bytes :=
  (Sha3.hash (checksumDomain ++ key ++ [versionByte])).take 2

/-- The bytes of the key alone. -/
def bytes : OnionKey → Bytes
  | v2 key => key.bytes
  | v3 key => key.bytes

/-- The bytes that a label spells. -/
def labelBytes : OnionKey → Bytes
  | v2 key => key.bytes
  | v3 key => key.bytes ++ checksum key.bytes ++ [versionByte]

/-- The key that the bytes of a label stand for. -/
def ofLabelBytes (bytes : Bytes) : Except Unencodable OnionKey :=
  if h : bytes.length = 10 then .ok (v2 ⟨bytes, h⟩)
  else if h : bytes.length = 35 then
    let key := bytes.take 32
    if bytes.drop 32 = checksum key ++ [versionByte] then .ok (v3 ⟨key, by simp [key, h]⟩)
    else .error .onionChecksum
  else .error .onionLength

/-- The label of a name: what stands before the suffix. -/
def label? (name : List Char) : Option (List Char) :=
  if suffix <:+ name then some (name.take (name.length - suffix.length)) else none

/-- The key that a name stands for. -/
def ofName (name : String) : Except Unencodable OnionKey :=
  match label? name.toList with
  | none => .error .notOnion
  | some label =>
    match Text.Base32.decode? label with
    | none => .error .notBase32
    | some bytes => ofLabelBytes bytes

/-- The name of a key. -/
def name (key : OnionKey) : String :=
  String.ofList (Text.Base32.encode key.labelBytes ++ suffix)

end OnionKey

end PeerProtocol
