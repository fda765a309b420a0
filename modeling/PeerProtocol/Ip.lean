import PeerProtocol.Bytes

/-!
# Internet addresses

Addresses of both versions as their octets, socket addresses, and the embedding of the older
version in the newer one.
-/

namespace PeerProtocol

/-- An internet address. -/
inductive IpAddress where
  | v4 (octets : Octets 4)
  | v6 (octets : Octets 16)
deriving DecidableEq

namespace IpAddress

/-- Whether the address is of version 6. -/
def isV6 : IpAddress → Bool
  | v4 _ => false
  | v6 _ => true

/-- The twelve octets that turn a version 4 address into a version 6 address. -/
def mappedFront : Bytes := [0, 0, 0, 0, 0, 0, 0, 0, 0, 0, 0xFF, 0xFF]

/-- The version 4 address that sixteen octets embed, if they embed one. -/
def mapped? (octets : Octets 16) : Option (Octets 4) :=
  if h : octets.bytes.take 12 = mappedFront then
    some ⟨octets.bytes.drop 12, by simp [octets.length_eq]⟩
  else none

/-- The sixteen octets of an address; version 4 is embedded. -/
def octets16 : IpAddress → Octets 16
  | v4 octets => ⟨mappedFront ++ octets.bytes, by simp [mappedFront, octets.length_eq]⟩
  | v6 octets => octets

/-- The address of sixteen octets, of version 4 where they embed one. -/
def ofOctets16 (octets : Octets 16) : IpAddress :=
  match mapped? octets with
  | some inner => v4 inner
  | none => v6 octets

end IpAddress

/-- An internet address and a port. -/
structure SocketAddress where
  ip : IpAddress
  port : UInt16
deriving DecidableEq

end PeerProtocol
