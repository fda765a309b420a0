import PeerProtocol.Encoding
import PeerProtocol.Endpoint.Layout
import PeerProtocol.Membership

/-!
# Peer addresses

An endpoint together with its encoding and its membership in a list. The version of its dialect
names its layout. Every change of the endpoint or the dialect drops the kept bytes and leaves a
note for the owning list; two addresses are equal when their endpoints are.
-/

namespace PeerProtocol

/-- One advertised peer as a message or part of one. -/
structure Address where
  encoding : Encoding
  membership : Membership
  endpoint : Endpoint
deriving DecidableEq

namespace Address

/-- The version that names the layout. -/
def version (address : Address) : UInt32 :=
  address.encoding.dialect.version

/-- The layout, or the error that the version names none. -/
def layoutOf (version : UInt32) : Except CodecError Layout :=
  match Layout.ofVersion? version with
  | some layout => .ok layout
  | none => .error (.unsupportedLayout version)

/-- The encoding of the fields as they are now. -/
def fields (address : Address) : Except CodecError Bytes := do
  let layout ← layoutOf address.version
  address.endpoint.encode layout

/-- The length that the fields will have in the address's layout, as far as it is known. -/
def fieldsLength? (address : Address) : Option Nat := do
  let layout ← Layout.ofVersion? address.version
  address.endpoint.encodedSize? layout

/-- Brings the length up to date with the fields. -/
def refreshLength (address : Address) : Address :=
  { address with encoding := address.encoding.setLength address.fieldsLength? }

/-- A free-standing address, last seen at `now`; the layout without a time leaves the time out. -/
def new (dialect : Dialect) (host : Host) (port : UInt16) (services : Services) (now : UInt32) :
    Address :=
  let time := if dialect.version = Layout.embedded.version then none else some now
  refreshLength ⟨.fresh dialect none, .free, ⟨some host, port, services, time⟩⟩

/-- A free-standing address of a socket, without services. -/
def ofSocket (dialect : Dialect) (socket : SocketAddress) (now : UInt32) : Address :=
  new dialect (.ip socket.ip) socket.port .empty now

/-- A free-standing address of a hidden service. The name is checked and written in lower case. -/
def ofOnionName (dialect : Dialect) (name : String) (port : UInt16) (services : Services)
    (now : UInt32) : Except CodecError Address :=
  match OnionKey.ofName name with
  | .error cause => .error (.unencodable cause)
  | .ok key => .ok (new dialect (.onion key.name) port services now)

/-- The address at an offset of a payload, as a part of the list `owner` if there is one, and the
number of bytes that it occupies. -/
def parse (dialect : Dialect) (payload : Bytes) (offset : Nat) (owner : Option ListId) :
    Except CodecError (Address × Nat) := do
  let layout ← layoutOf dialect.version
  let input := payload.drop offset
  let (endpoint, rest) ← Endpoint.decode layout input
  let used := input.length - rest.length
  let membership := match owner with
    | some owner => Membership.ownedBy owner
    | none => Membership.free
  pure (⟨.parsed dialect payload offset used, membership, endpoint⟩, used)

/-- The size of the encoding, if it is known. -/
def size? (address : Address) : Option Nat :=
  address.encoding.length

/-- Drops the kept bytes and leaves a note for the owner. -/
def invalidate (address : Address) : Address :=
  { address with
    encoding := address.encoding.uncache
    membership := address.membership.markChanged }

/-- Another endpoint, after the kept bytes are dropped. -/
def setEndpoint (address : Address) (endpoint : Endpoint) : Address :=
  { address.invalidate with endpoint := endpoint }

/-- Another host. -/
def setHost (address : Address) (host : Host) : Address :=
  (address.setEndpoint { address.endpoint with host := some host }).refreshLength

/-- Another port. No layout's length depends on it. -/
def setPort (address : Address) (port : UInt16) : Address :=
  address.setEndpoint { address.endpoint with port := port }

/-- Other services. -/
def setServices (address : Address) (services : Services) : Address :=
  (address.setEndpoint { address.endpoint with services := services }).refreshLength

/-- Another time, or none. No layout's length depends on it. -/
def setTime (address : Address) (time : Option UInt32) : Address :=
  address.setEndpoint { address.endpoint with time := time }

/-- Another dialect, and with it perhaps another layout. The same dialect changes nothing. -/
def setDialect (address : Address) (dialect : Dialect) : Address :=
  if address.encoding.dialect = dialect then address
  else
    let changed := address.invalidate
    { changed with encoding := changed.encoding.setDialect dialect }.refreshLength

/-- A copy stands in no list. -/
def copy (address : Address) : Address :=
  { address with membership := .free }

/-- The encoded bytes and the address that remembers them. -/
def serialize (address : Address) : Except CodecError Bytes × Address :=
  let (result, encoding) := address.encoding.serialize address.fields
  (result, { address with encoding := encoding })

/-- The bytes that the address contributes to a larger message. -/
def contribution (address : Address) : Except CodecError Bytes :=
  address.encoding.contribution address.fields

end Address

end PeerProtocol
