import PeerProtocol.Ip.Text
import PeerProtocol.Onion
import PeerProtocol.Services

/-!
# Endpoints

What a peer address tells: where a peer can be reached, the services it offers and when it was
last seen. How an endpoint is encoded is the business of the layouts.
-/

namespace PeerProtocol

/-- Where a peer can be reached. A hidden service is kept as its name, which may not be one. -/
inductive Host where
  | ip (address : IpAddress)
  | onion (name : String)
deriving DecidableEq

/-- One peer as it is advertised. The host is missing where its network is unknown; the time is in
seconds since the epoch and is missing where a layout has none. -/
structure Endpoint where
  host : Option Host
  port : UInt16
  services : Services
  time : Option UInt32
deriving DecidableEq

namespace Endpoint

/-- The internet address of an endpoint that has one. -/
def ip? (endpoint : Endpoint) : Option IpAddress :=
  match endpoint.host with
  | some (.ip address) => some address
  | _ => none

/-- The onion name of an endpoint that has one. -/
def onionName? (endpoint : Endpoint) : Option String :=
  match endpoint.host with
  | some (.onion name) => some name
  | _ => none

/-- The socket address of an endpoint that has an internet address. -/
def socketAddress? (endpoint : Endpoint) : Option SocketAddress :=
  endpoint.ip?.map fun ip => ⟨ip, endpoint.port⟩

/-- Host and port as one text. -/
def text (endpoint : Endpoint) : String :=
  match endpoint.host with
  | some (.ip ip) => SocketAddress.text ⟨ip, endpoint.port⟩
  | some (.onion name) => name ++ ":" ++ toString endpoint.port.toNat
  | none => "<unknown>:" ++ toString endpoint.port.toNat

end Endpoint

end PeerProtocol
