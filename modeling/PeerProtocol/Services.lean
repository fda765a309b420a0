import PeerProtocol.Text.Hex

/-!
# Service bits

The 64 bits in which a node advertises what it serves. Five of them have names; all others are
carried unchanged.
-/

namespace PeerProtocol

/-- A set of service bits. -/
structure Services where
  bits : UInt64
deriving DecidableEq, Repr

namespace Services

/-- No services at all. -/
def empty : Services := ⟨0⟩

/-- The named bits, in the order in which they are listed. -/
def named : List (Services × String) :=
  [(⟨0x01⟩, "NODE_NETWORK"),
   (⟨0x04⟩, "NODE_BLOOM"),
   (⟨0x08⟩, "NODE_WITNESS"),
   (⟨0x40⟩, "NODE_COMPACT_FILTERS"),
   (⟨0x0400⟩, "NODE_NETWORK_LIMITED")]

/-- Whether every bit of `other` is set. -/
def contains (services other : Services) : Bool :=
  (services.bits &&& other.bits) == other.bits

/-- Whether no bit is set. -/
def isEmpty (services : Services) : Bool :=
  services.bits == 0

/-- The names of the named bits that are set; the empty set has a name of its own. -/
def names (services : Services) : List String :=
  if services.isEmpty then ["NONE"]
  else (named.filter fun entry => services.contains entry.1).map Prod.snd

/-- The names joined, followed by all bits in sixteen hexadecimal digits. -/
def text (services : Services) : String :=
  if services.isEmpty then "Services(NONE)"
  else "Services(" ++ String.intercalate " | " services.names ++ ") [0x" ++
    Text.hexPadded 16 services.bits.toNat ++ "]"

end Services

end PeerProtocol
