import PeerProtocol.CompactSize
import PeerProtocol.Endpoint

/-!
# Layouts of an endpoint

An endpoint is written in one of three layouts, which the versions 0, 1 and 2 name:

* `embedded`: services in eight bytes, sixteen address bytes, the port; 26 bytes, no time.
* `timed`: the time before the same fields; 30 bytes.
* `tagged`: time, services as a CompactSize number, a network id, the address bytes after their
  CompactSize length, the port.

The sixteen address bytes embed version 4 addresses and the keys of version 2 onion services, so
those come back as what they embed. A tagged entry of an unknown network is read as an endpoint
without a host, which no layout can write.
-/

namespace PeerProtocol

/-- A way to write an endpoint. -/
inductive Layout where
  | embedded
  | timed
  | tagged
deriving DecidableEq, Repr

namespace Layout

/-- The layout that a version names. -/
def ofVersion? (version : UInt32) : Option Layout :=
  if version = 0 then some embedded
  else if version = 1 then some timed
  else if version = 2 then some tagged
  else none

/-- The version that names a layout. -/
def version : Layout → UInt32
  | embedded => 0
  | timed => 1
  | tagged => 2

/-- A layout is what its version names. -/
theorem ofVersion?_version (layout : Layout) : ofVersion? layout.version = some layout := by
  cases layout <;> rfl

end Layout

namespace Host

/-- The six bytes before a version 2 onion key among sixteen address bytes. -/
def onionFront : Bytes := [0xFD, 0x87, 0xD8, 0x7E, 0xEB, 0x43]

/-- The onion key that sixteen address bytes embed, if they embed one. -/
def embeddedKey? (octets : Octets 16) : Option (Octets 10) :=
  if octets.bytes.take 6 = onionFront then
    some ⟨octets.bytes.drop 6, by simp [octets.length_eq]⟩
  else none

/-- The host of sixteen address bytes. -/
def ofOctets16 (octets : Octets 16) : Host :=
  match embeddedKey? octets with
  | some key => .onion (OnionKey.v2 key).name
  | none => .ip (IpAddress.ofOctets16 octets)

/-- The sixteen address bytes of a host. -/
def toOctets16 : Host → Except Unencodable Bytes
  | ip address => .ok address.octets16.bytes
  | onion name => do
      match ← OnionKey.ofName name with
      | .v2 key => pure (onionFront ++ key.bytes)
      | .v3 _ => throw .onionNeedsTagged

/-- The network id and the address bytes of a host in a tagged entry. -/
def toEntry : Host → Except Unencodable (UInt8 × Bytes)
  | ip (.v4 octets) => .ok (1, octets.bytes)
  | ip (.v6 octets) => .ok (2, octets.bytes)
  | onion name => do
      match ← OnionKey.ofName name with
      | .v2 key => pure (3, key.bytes)
      | .v3 key => pure (4, key.bytes)

/-- Address bytes of the length that a known network has. -/
def entryOctets (networkId : UInt8) (count : Nat) (bytes : Bytes) :
    Except CodecError (Octets count) :=
  if h : bytes.length = count then .ok ⟨bytes, h⟩
  else .error (.addressLength networkId count bytes.length)

/-- The host of a tagged entry; none for an unknown network. -/
def ofEntry (networkId : UInt8) (bytes : Bytes) : Except CodecError (Option Host) :=
  if networkId = 1 then
    (entryOctets networkId 4 bytes).map fun octets => some (.ip (.v4 octets))
  else if networkId = 2 then
    (entryOctets networkId 16 bytes).map fun octets => some (.ip (.v6 octets))
  else if networkId = 3 then
    (entryOctets networkId 10 bytes).map fun key => some (.onion (OnionKey.v2 key).name)
  else if networkId = 4 then
    (entryOctets networkId 32 bytes).map fun key => some (.onion (OnionKey.v3 key).name)
  else .ok none

end Host

namespace Endpoint

open Bytes

/-- The largest number of address bytes that a tagged entry may declare. -/
def maxEntryAddress : Nat := 512

/-- A part of the encoding, or the error that there is none. -/
def hostPart {α : Type} (endpoint : Endpoint) (part : Host → Except Unencodable α) :
    Except CodecError α :=
  match endpoint.host with
  | none => .error (.unencodable .unknownNetwork)
  | some host =>
    match part host with
    | .error cause => .error (.unencodable cause)
    | .ok value => .ok value

/-- The time that is written; a missing one is zero. -/
def timeBytes (endpoint : Endpoint) : Bytes :=
  littleEndian 4 (endpoint.time.getD 0).toNat

/-- The services, the sixteen address bytes and the port. -/
def plainFields (endpoint : Endpoint) (address : Bytes) : Bytes :=
  littleEndian 8 endpoint.services.bits.toNat ++ address ++ bigEndian 2 endpoint.port.toNat

/-- The encoding of an endpoint in a layout. -/
def encode (layout : Layout) (endpoint : Endpoint) : Except CodecError Bytes :=
  match layout with
  | .embedded => do
      let address ← endpoint.hostPart Host.toOctets16
      pure (endpoint.plainFields address)
  | .timed => do
      let address ← endpoint.hostPart Host.toOctets16
      pure (endpoint.timeBytes ++ endpoint.plainFields address)
  | .tagged => do
      let (networkId, address) ← endpoint.hostPart Host.toEntry
      pure (endpoint.timeBytes ++ CompactSize.encode endpoint.services.bits ++ [networkId] ++
        CompactSize.encode (UInt64.ofNat address.length) ++ address ++
        bigEndian 2 endpoint.port.toNat)

/-- The number of bytes that the encoding will have, as far as it is known: the plain layouts have
one size, and a tagged entry has one if its host can be written. -/
def encodedSize? (layout : Layout) (endpoint : Endpoint) : Option Nat :=
  match layout with
  | .embedded => some 26
  | .timed => some 30
  | .tagged =>
    match endpoint.host.map Host.toEntry with
    | some (.ok (_, address)) =>
        some (4 + CompactSize.size endpoint.services.bits + 1 +
          CompactSize.size (UInt64.ofNat address.length) + address.length + 2)
    | _ => none

/-- A port at the front of a byte string, and what follows it. -/
def decodePort (bytes : Bytes) : Except CodecError (UInt16 × Bytes) := do
  let (port, rest) ← readBigEndian .port 2 bytes
  pure (UInt16.ofNat port, rest)

/-- A time at the front of a byte string, and what follows it. -/
def decodeTime (bytes : Bytes) : Except CodecError (UInt32 × Bytes) := do
  let (time, rest) ← readLittleEndian .word32 4 bytes
  pure (UInt32.ofNat time, rest)

/-- The fields that the plain layouts share, under a time that was read before. -/
def decodePlainFields (time : Option UInt32) (bytes : Bytes) :
    Except CodecError (Endpoint × Bytes) := do
  let (services, bytes) ← readLittleEndian .word64 8 bytes
  match Octets.split? 16 bytes with
  | none => throw (.truncated .hostAddress)
  | some (octets, bytes) =>
    let (port, rest) ← decodePort bytes
    pure (⟨some (Host.ofOctets16 octets), port, ⟨UInt64.ofNat services⟩, time⟩, rest)

/-- A tagged entry. The declared address length is checked before the address is read. -/
def decodeTagged (bytes : Bytes) : Except CodecError (Endpoint × Bytes) := do
  let (time, bytes) ← decodeTime bytes
  let (services, bytes) ← CompactSize.decode bytes
  let (networkId, bytes) ← readLittleEndian .networkId 1 bytes
  let (length, bytes) ← CompactSize.decode bytes
  if maxEntryAddress < length.toNat then
    throw (.addressTooLong length.toNat)
  match bytes.split? length.toNat with
  | none => throw (.truncated .entryAddress)
  | some (address, bytes) =>
    let host ← Host.ofEntry (UInt8.ofNat networkId) address
    let (port, rest) ← decodePort bytes
    pure (⟨host, port, ⟨services⟩, some time⟩, rest)

/-- The endpoint at the front of a byte string in a layout, and what follows it. -/
def decode (layout : Layout) (bytes : Bytes) : Except CodecError (Endpoint × Bytes) :=
  match layout with
  | .embedded => decodePlainFields none bytes
  | .timed => do
      let (time, bytes) ← decodeTime bytes
      decodePlainFields (some time) bytes
  | .tagged => decodeTagged bytes

end Endpoint

end PeerProtocol
