import PeerProtocol.Bytes

/-!
# Networks

The four public networks, each with the four magic bytes that open every frame on it and the port
its nodes listen on. The names are those that users write; every network answers to its own id.
-/

namespace PeerProtocol

/-- A network that nodes join. -/
inductive Network where
  | main
  | test
  | regtest
  | signet
deriving DecidableEq, Repr

namespace Network

/-- The short name under which a network is shown. -/
def id : Network → String
  | main => "main"
  | test => "test"
  | regtest => "regtest"
  | signet => "signet"

/-- The four bytes that open every frame on the network. -/
def magic : Network → Bytes
  | main => [0xF9, 0xBE, 0xB4, 0xD9]
  | test => [0x0B, 0x11, 0x09, 0x07]
  | regtest => [0xFA, 0xBF, 0xB5, 0xDA]
  | signet => [0x0A, 0x03, 0xCF, 0x40]

/-- The port on which nodes of the network listen unless told otherwise. -/
def port : Network → UInt16
  | main => 8333
  | test => 18333
  | regtest => 18444
  | signet => 38333

/-- The network that a user's name stands for. -/
def ofName? : String → Option Network
  | "main" | "mainnet" => some main
  | "test" | "testnet" | "testnet3" => some test
  | "regtest" => some regtest
  | "signet" => some signet
  | _ => none

/-- What is said of a name that stands for no network. -/
def unknownName (name : String) : String :=
  "unknown network: " ++ name

/-- Every network is named by its own id. -/
theorem ofName?_id (network : Network) : ofName? network.id = some network := by
  cases network <;> rfl

/-- Every magic has four bytes. -/
theorem length_magic (network : Network) : network.magic.length = 4 := by
  cases network <;> rfl

end Network

end PeerProtocol
