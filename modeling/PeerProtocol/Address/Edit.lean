import PeerProtocol.Address

/-!
# Edits of an address

Everything that may be done with an address whose owner lets one act on it: the changes of its
fields and of its dialect, overwriting it as a whole, and encoding it in one of the three ways.
-/

namespace PeerProtocol.Address

/-- One thing done with an address. -/
inductive Edit where
  | host (host : Host)
  | port (port : UInt16)
  | services (services : Services)
  | time (time : Option UInt32)
  | dialect (dialect : Dialect)
  /-- The address's own dialect under another version. -/
  | version (version : UInt32)
  /-- A copy of another address takes the place of this one. -/
  | replace (other : Address)
  | serialize
  | contribution
  | fields

/-- The address after an edit, and the encoding where the edit asked for one. -/
def edit (address : Address) : Edit → Option (Except CodecError Bytes) × Address
  | .host host => (none, address.setHost host)
  | .port port => (none, address.setPort port)
  | .services services => (none, address.setServices services)
  | .time time => (none, address.setTime time)
  | .dialect dialect => (none, address.setDialect dialect)
  | .version version => (none, address.setDialect (address.encoding.dialect.withVersion version))
  | .replace other => (none, other.copy)
  | .serialize =>
      let (result, address) := address.serialize
      (some result, address)
  | .contribution => (some address.contribution, address)
  | .fields => (some address.fields, address)

/-- The address after edits in order, and what each answered. -/
def editAll (address : Address) : List Edit → List (Option (Except CodecError Bytes)) × Address
  | [] => ([], address)
  | change :: changes =>
      let (result, address) := address.edit change
      let (results, address) := address.editAll changes
      (result :: results, address)

end PeerProtocol.Address
