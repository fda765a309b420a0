import PeerProtocol.Address

/-!
# Address lists

The payload of the two messages that advertise peers: a CompactSize count and that many addresses,
all in the list's layout. The list owns its addresses, holds at most 1000 of them, and drops its
kept bytes whenever one is added, removed or changed.
-/

namespace PeerProtocol

/-- Which of the two list messages a list is. -/
inductive ListFormat where
  /-- Entries of one size. -/
  | addr
  /-- Entries tagged with their network. -/
  | addrv2
deriving DecidableEq, Repr

namespace ListFormat

/-- The layout of every entry. -/
def layout : ListFormat → Layout
  | addr => .timed
  | addrv2 => .tagged

/-- The version of every entry's dialect. -/
def version (format : ListFormat) : UInt32 :=
  format.layout.version

/-- The command under which the list is sent. -/
def command : ListFormat → String
  | addr => "addr"
  | addrv2 => "addrv2"

end ListFormat

/-- A list of advertised peers. -/
structure AddressList where
  encoding : Encoding
  id : ListId
  format : ListFormat
  entries : List Address
deriving DecidableEq

namespace AddressList

/-- The largest number of entries. -/
def maxEntries : Nat := 1000

/-- An empty list, which is encoded as a count of zero. -/
def new (dialect : Dialect) (format : ListFormat) (id : ListId) : AddressList :=
  ⟨.fresh dialect (some 1), id, format, []⟩

/-- The next `count` entries of a payload from an offset on, and the offset after them. -/
def parseEntries (dialect : Dialect) (owner : ListId) (payload : Bytes) :
    (count offset : Nat) → Except CodecError (List Address × Nat)
  | 0, offset => .ok ([], offset)
  | count + 1, offset => do
      let (entry, used) ← Address.parse dialect payload offset (some owner)
      let (entries, final) ← parseEntries dialect owner payload count (offset + used)
      pure (entry :: entries, final)

/-- The list at the front of a payload. The count is checked before any entry is read. -/
def parse (dialect : Dialect) (format : ListFormat) (id : ListId) (payload : Bytes) :
    Except CodecError AddressList := do
  let (count, rest) ← CompactSize.decode payload
  if maxEntries < count.toNat then
    throw (.tooManyAddresses count.toNat)
  let (entries, used) ← parseEntries (dialect.withVersion format.version) id payload count.toNat
    (payload.length - rest.length)
  pure ⟨.parsed dialect payload 0 used, id, format, entries⟩

/-- The size of the encoding, if it is known. -/
def size? (list : AddressList) : Option Nat :=
  list.encoding.length

/-- The contributions of all entries, or the first error. -/
def entriesFields : List Address → Except CodecError Bytes
  | [] => .ok []
  | entry :: rest => do
      let front ← entry.contribution
      let back ← entriesFields rest
      pure (front ++ back)

/-- The encoding of the entries as they are now. -/
def fields (list : AddressList) : Except CodecError Bytes := do
  let entries ← entriesFields list.entries
  pure (CompactSize.encode (UInt64.ofNat list.entries.length) ++ entries)

/-- The encoded bytes and the list that remembers them. -/
def serialize (list : AddressList) : Except CodecError Bytes × AddressList :=
  let (result, encoding) := list.encoding.serialize list.fields
  (result, { list with encoding := encoding })

/-- Adds an address, which must have the list's layout, at the end. -/
def add (list : AddressList) (address : Address) : Except CodecError Unit × AddressList :=
  if address.version ≠ list.format.version then
    (.error (.layoutMismatch list.format.version address.version), list)
  else if maxEntries ≤ list.entries.length then
    (.error (.tooManyAddresses (list.entries.length + 1)), list)
  else
    let list := { list with encoding := list.encoding.uncache }
    let delta := address.size?.map fun size => (size : Int)
    let entry := { address with membership := address.membership.attach list.id }
    let list := { list with entries := list.entries ++ [entry] }
    (.ok (), { list with encoding := list.encoding.adjustLength list.entries.length delta })

/-- Adds addresses in order, up to the first that is refused. -/
def addAll (list : AddressList) : List Address → Except CodecError Unit × AddressList
  | [] => (.ok (), list)
  | address :: rest =>
    match list.add address with
    | (.error error, list) => (.error error, list)
    | (.ok _, list) => list.addAll rest

/-- Removes the entry at an index and hands it out, free-standing. -/
def remove (list : AddressList) (index : Nat) : Option (Address × AddressList) :=
  match list.entries[index]? with
  | none => none
  | some entry =>
      some ({ entry with membership := entry.membership.detach },
        { list with
          entries := list.entries.eraseIdx index
          encoding := list.encoding.uncache.setLength none })

/-- An entry on the list's layout again, should it have left it. -/
def restoreLayout (list : AddressList) (entry : Address) : Address :=
  if entry.version = list.format.version then entry
  else entry.setDialect (entry.encoding.dialect.withVersion list.format.version)

/-- How the length of an entry changed, if it was known before and is after. -/
def sizeChange? (before after : Option Nat) : Option Int :=
  match before, after with
  | some before, some after => some ((after : Int) - before)
  | _, _ => none

/-- Lets `change` act on the entry at an index. An entry that noted a change makes the list drop
its bytes and follow the entry's size. -/
def modify {α : Type} (list : AddressList) (index : Nat) (change : Address → α × Address) :
    Option (α × AddressList) :=
  match list.entries[index]? with
  | none => none
  | some entry =>
    let (result, changed) := change entry
    let restored := list.restoreLayout changed
    let (noted, membership) := restored.membership.takeChange list.id
    let entries := list.entries.set index { restored with membership := membership }
    let encoding :=
      if noted then list.encoding.uncache.adjustLength 0 (sizeChange? entry.size? restored.size?)
      else list.encoding
    some (result, { list with entries := entries, encoding := encoding })

/-- A copy under an identity of its own, which owns copies of the entries. -/
def copy (list : AddressList) (id : ListId) : AddressList :=
  { list with
    id := id
    entries := list.entries.map fun entry =>
      { entry.copy with membership := entry.copy.membership.attach id } }

/-- Whether two lists are of one format and advertise the same endpoints in the same order. -/
def same (left right : AddressList) : Bool :=
  left.format == right.format &&
    left.entries.map (·.endpoint) == right.entries.map (·.endpoint)

/-- The command and the entries as one text. -/
def text (list : AddressList) : String :=
  list.format.command ++ ":" ++
    String.join (list.entries.map fun entry => " " ++ entry.endpoint.text)

end AddressList

end PeerProtocol
