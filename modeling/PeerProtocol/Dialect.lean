import PeerProtocol.Network

/-!
# Dialects

What one side of a conversation speaks: the network, the protocol version, and whether messages
that were read keep the bytes they were read from.
-/

namespace PeerProtocol

/-- A network, a protocol version and the choice to retain the bytes of parsed messages. The
versions 0, 1 and 2 name the layouts of a peer address. -/
structure Dialect where
  network : Network
  version : UInt32
  retain : Bool
deriving DecidableEq, Repr

namespace Dialect

/-- The protocol version spoken unless another is asked for. -/
def currentVersion : UInt32 := 70016

/-- The same network and retain choice under another version. -/
def withVersion (dialect : Dialect) (version : UInt32) : Dialect :=
  { dialect with version }

end Dialect

end PeerProtocol
