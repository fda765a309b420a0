import PeerProtocol.Text.Hex
import PeerProtocol.Text.Quoted

/-!
# Errors

The causes for which a message cannot be read or written (`CodecError`) and for which a connection
refuses or loses a request (`LinkError`), each with its wording.
-/

namespace PeerProtocol

/-- The field that was being read when a payload ended. -/
inductive Field where
  /-- The first byte of a CompactSize number. -/
  | compactSize
  /-- The bytes of a two-byte CompactSize number. -/
  | compactSize16
  /-- The bytes of a four-byte CompactSize number. -/
  | compactSize32
  /-- The bytes of an eight-byte CompactSize number. -/
  | compactSize64
  /-- A four-byte number. -/
  | word32
  /-- An eight-byte number. -/
  | word64
  /-- The sixteen address bytes of the plain layouts. -/
  | hostAddress
  /-- The network id of a tagged entry. -/
  | networkId
  /-- The address bytes of a tagged entry. -/
  | entryAddress
  /-- The port of a peer address. -/
  | port
  /-- The header of a frame. -/
  | header
deriving DecidableEq, Repr

namespace Field

/-- The name of a field in an error text. -/
def label : Field → String
  | compactSize => "varint"
  | compactSize16 => "varint:fd"
  | compactSize32 => "varint:fe"
  | compactSize64 => "varint:ff"
  | word32 => "u32"
  | word64 => "u64"
  | hostAddress => "peer address: ip"
  | networkId => "peer address: network id"
  | entryAddress => "peer address: addr"
  | port => "peer address: port"
  | header => "packet header"

end Field

/-- Why an address has no encoding in a layout. -/
inductive Unencodable where
  | notOnion
  | notBase32
  | onionChecksum
  | onionLength
  | onionNeedsTagged
  | unknownNetwork
deriving DecidableEq, Repr

namespace Unencodable

/-- The wording of a reason. -/
def reason : Unencodable → String
  | notOnion => "hostname is not an .onion address"
  | notBase32 => "onion label is not base32"
  | onionChecksum => "onion v3 checksum or version mismatch"
  | onionLength => "onion label has unexpected length"
  | onionNeedsTagged => "Tor v3 addresses need the addrv2 layout"
  | unknownNetwork => "address of unknown network"

end Unencodable

/-- Why a message cannot be read or written. Each is fatal for the message, and on a connection
for that connection. -/
inductive CodecError where
  /-- The payload ended inside a field. -/
  | truncated (field : Field)
  /-- The header declares a size that is negative or above the cap. -/
  | headerSize (size : Int)
  /-- A command name that a header cannot carry. -/
  | invalidCommand (name : String)
  /-- The payload does not have the checksum that its header declares. -/
  | checksumMismatch (declared computed : Bytes)
  /-- An address list with more entries than a peer may send. -/
  | tooManyAddresses (count : Nat)
  /-- An entry declares an absurd address length. -/
  | addressTooLong (length : Nat)
  /-- An entry of a known network has the wrong number of address bytes. -/
  | addressLength (networkId : UInt8) (expected actual : Nat)
  /-- The layout cannot hold the address. -/
  | unencodable (cause : Unencodable)
  /-- The version names no peer address layout. -/
  | unsupportedLayout (version : UInt32)
  /-- An entry has another layout than its list. -/
  | layoutMismatch (expected actual : UInt32)
  /-- A payload above the cap. -/
  | messageTooLarge (size : Nat)
  /-- The source ended inside a frame. -/
  | endOfSource
deriving DecidableEq, Repr

namespace CodecError

/-- The wording of a codec error. -/
def message : CodecError → String
  | truncated field => "unexpected end of payload while reading " ++ field.label
  | headerSize size => "declared payload size " ++ toString size ++ " is out of bounds"
  | invalidCommand name => "invalid command name " ++ Text.quoted name
  | checksumMismatch declared computed =>
      "checksum mismatch: header " ++ Text.hex declared ++ ", payload " ++ Text.hex computed
  | tooManyAddresses count =>
      "address message declares " ++ toString count ++ " entries, limit is 1000"
  | addressTooLong length => "address length " ++ toString length ++ " is too large"
  | addressLength networkId expected actual =>
      "network id 0x" ++ Text.hexPadded 2 networkId.toNat ++ " expects " ++ toString expected ++
        " address bytes, got " ++ toString actual
  | unencodable cause => "address cannot be encoded: " ++ cause.reason
  | unsupportedLayout version =>
      "protocol version " ++ toString version.toNat ++ " has no peer address layout"
  | layoutMismatch expected actual =>
      "address uses protocol version " ++ toString actual.toNat ++ ", container requires " ++
        toString expected.toNat
  | messageTooLarge size =>
      "message of " ++ toString size ++ " bytes exceeds the maximum message size"
  | endOfSource => "failed to fill whole buffer"

end CodecError

/-- Why a connection is ended or a message refused by the code that drives it. -/
inductive Rejection where
  /-- The application has not taken the messages that were decoded for it. -/
  | inboxFull
  /-- A collaborator claims to have consumed more bytes than it was offered. -/
  | overconsumed (consumed offered : Nat)
  /-- A collaborator leaves a full read buffer as it is. -/
  | bufferFull
  /-- A collaborator's own reason. -/
  | other (reason : String)
deriving DecidableEq, Repr

namespace Rejection

/-- The wording of a rejection. -/
def reason : Rejection → String
  | inboxFull => "inbound queue is full"
  | overconsumed consumed offered =>
      "consumed " ++ toString consumed ++ " of " ++ toString offered ++ " buffered bytes"
  | bufferFull => "read buffer full and nothing consumed"
  | other reason => reason

end Rejection

/-- Why a request to a connection, or to those that manage connections, fails. -/
inductive LinkError where
  /-- A write above the budget of unsent bytes. -/
  | outboundOverflow (queued requested limit : Nat)
  /-- The connection ended before the request was done. -/
  | closed
  /-- The outbound connection could not be made. -/
  | connectFailed
  /-- The outbound connection was not made in time. -/
  | connectTimeout
  /-- Nobody is there to carry out the request. -/
  | notRunning
  /-- A collaborator refused or mishandled the connection. -/
  | rejected (cause : Rejection)
  /-- A message could not be read or written. -/
  | codec (error : CodecError)
  /-- The socket failed. -/
  | socket
deriving DecidableEq, Repr

namespace LinkError

/-- The wording of a link error. What the operating system reports of a socket is not repeated. -/
def message : LinkError → String
  | outboundOverflow queued requested limit =>
      "outbound buffer overflowed: " ++ toString queued ++ " queued + " ++ toString requested ++
        " requested > " ++ toString limit
  | closed => "connection closed"
  | connectFailed => ""
  | connectTimeout => "connect timed out"
  | notRunning => "connection manager is not running"
  | rejected cause => "connection rejected: " ++ cause.reason
  | codec error => error.message
  | socket => ""

end LinkError

end PeerProtocol
