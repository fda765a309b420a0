import PeerProtocol.Address
import PeerProtocol.Text.Utf8

/-!
# Opening a handshake

The payload of the `version` message with which a node introduces itself: its protocol version and
services, the time, the receiver's and its own address in the layout without a time, a nonce, its
user agent, the height of its chain and whether it wants transactions relayed.
-/

namespace PeerProtocol.Handshake

open Bytes

/-- The user agent of this implementation. -/
def userAgent : String := "/btc-wire:0.1.0/"

/-- A signed number in its two's complement form of some bytes. -/
def signed (width : Nat) (value : Int) : Bytes :=
  littleEndian width (value % span width).toNat

/-- The payload for a receiver at a time and with a nonce. -/
def payload (dialect : Dialect) (services : Services) (receiver : SocketAddress)
    (startHeight : Int) (now : Int) (nonce : UInt64) : Except CodecError Bytes := do
  let embedded := dialect.withVersion Layout.embedded.version
  let unspecified : IpAddress := .v4 ⟨[0, 0, 0, 0], rfl⟩
  let receiverBytes ← (Address.ofSocket embedded receiver 0).contribution
  let senderBytes ← (Address.new embedded (.ip unspecified) 0 services 0).contribution
  let agent := Text.utf8 userAgent
  pure (littleEndian 4 dialect.version.toNat ++ littleEndian 8 services.bits.toNat ++
    signed 8 now ++ receiverBytes ++ senderBytes ++ littleEndian 8 nonce.toNat ++
    CompactSize.encode (UInt64.ofNat agent.length) ++ agent ++ signed 4 startHeight ++ [0])

end PeerProtocol.Handshake
