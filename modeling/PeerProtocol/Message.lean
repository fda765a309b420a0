import PeerProtocol.AddressList

/-!
# Messages

The messages that are read and written: the keep-alive pair, the signal that a peer prefers tagged
address lists, the two address lists, and every other command with its payload verbatim. A message
of an address list is the one that its list's format names.
-/

namespace PeerProtocol

open Bytes

/-- The kinds of messages. -/
inductive Command where
  | ping
  | pong
  | sendAddrV2
  | addr
  | addrV2
  | unknown
deriving DecidableEq, Repr

namespace Command

/-- The kind that a name in a header stands for. -/
def ofName (name : String) : Command :=
  if name = "ping" then ping
  else if name = "pong" then pong
  else if name = "sendaddrv2" then sendAddrV2
  else if name = "addr" then addr
  else if name = "addrv2" then addrV2
  else unknown

/-- The name of a kind in a header, empty for the kind of all other names. -/
def name : Command → String
  | ping => "ping"
  | pong => "pong"
  | sendAddrV2 => "sendaddrv2"
  | addr => "addr"
  | addrV2 => "addrv2"
  | unknown => ""

end Command

/-- A message. Very old peers send a ping without a nonce. -/
inductive Message where
  | ping (encoding : Encoding) (nonce : Option UInt64)
  | pong (encoding : Encoding) (nonce : UInt64)
  | sendAddrV2 (encoding : Encoding)
  | addresses (list : AddressList)
  | unknown (encoding : Encoding) (name : String) (payload : Bytes)
deriving DecidableEq

namespace Message

/-- A ping that asks for an answer. -/
def newPing (dialect : Dialect) (nonce : UInt64) : Message :=
  .ping (.fresh dialect (some 8)) (some nonce)

/-- A ping without a nonce, which nobody answers. -/
def newBarePing (dialect : Dialect) : Message :=
  .ping (.fresh dialect (some 0)) none

/-- The answer to a ping. -/
def newPong (dialect : Dialect) (nonce : UInt64) : Message :=
  .pong (.fresh dialect (some 8)) nonce

/-- The signal for tagged address lists. -/
def newSendAddrV2 (dialect : Dialect) : Message :=
  .sendAddrV2 (.fresh dialect (some 0))

/-- Any payload under any name. -/
def newUnknown (dialect : Dialect) (name : String) (payload : Bytes) : Message :=
  .unknown (.fresh dialect (some payload.length)) name payload

/-- The nonce at the front of a payload. -/
def parseNonce (payload : Bytes) : Except CodecError UInt64 := do
  let (nonce, _) ← readLittleEndian .word64 8 payload
  pure (UInt64.ofNat nonce)

/-- The message of a command and its payload; a list takes the identity `id`. What follows the
nonce of a ping or pong, or the payload of an empty message, is ignored. -/
def parse (dialect : Dialect) (id : ListId) (name : String) (payload : Bytes) :
    Except CodecError Message :=
  match Command.ofName name with
  | .ping =>
    match parseNonce payload with
    | .ok nonce => .ok (.ping (.parsed dialect payload 0 8) (some nonce))
    | .error _ => .ok (.ping (.parsed dialect payload 0 0) none)
  | .pong => do
      let nonce ← parseNonce payload
      pure (.pong (.parsed dialect payload 0 8) nonce)
  | .sendAddrV2 => .ok (.sendAddrV2 (.parsed dialect payload 0 0))
  | .addr => (AddressList.parse dialect .addr id payload).map .addresses
  | .addrV2 => (AddressList.parse dialect .addrv2 id payload).map .addresses
  | .unknown => .ok (.unknown (.parsed dialect payload 0 payload.length) name payload)

/-- The kind of a message. -/
def command : Message → Command
  | .ping .. => .ping
  | .pong .. => .pong
  | .sendAddrV2 .. => .sendAddrV2
  | .addresses list =>
    match list.format with
    | .addr => .addr
    | .addrv2 => .addrV2
  | .unknown .. => .unknown

/-- The name under which a message is sent. -/
def name : Message → String
  | .unknown _ name _ => name
  | message => message.command.name

/-- What is known of a message's encoding. -/
def encoding : Message → Encoding
  | .ping encoding _ => encoding
  | .pong encoding _ => encoding
  | .sendAddrV2 encoding => encoding
  | .addresses list => list.encoding
  | .unknown encoding _ _ => encoding

/-- The message with other knowledge of its encoding. -/
def withEncoding (encoding : Encoding) : Message → Message
  | .ping _ nonce => .ping encoding nonce
  | .pong _ nonce => .pong encoding nonce
  | .sendAddrV2 _ => .sendAddrV2 encoding
  | .addresses list => .addresses { list with encoding := encoding }
  | .unknown _ name payload => .unknown encoding name payload

/-- The size of the encoding, if it is known. -/
def size? (message : Message) : Option Nat :=
  message.encoding.length

/-- The payload that the fields encode as. -/
def fields : Message → Except CodecError Bytes
  | .ping _ (some nonce) => .ok (littleEndian 8 nonce.toNat)
  | .ping _ none => .ok []
  | .pong _ nonce => .ok (littleEndian 8 nonce.toNat)
  | .sendAddrV2 _ => .ok []
  | .addresses list => list.fields
  | .unknown _ _ payload => .ok payload

/-- The payload and the message that remembers it. -/
def serialize (message : Message) : Except CodecError Bytes × Message :=
  let (result, encoding) := message.encoding.serialize message.fields
  (result, message.withEncoding encoding)

/-- The payload as it would be appended to other bytes, without remembering it. -/
def contribution (message : Message) : Except CodecError Bytes :=
  message.encoding.contribution message.fields

/-- A copy; a list is copied under the identity `id`. -/
def copy (message : Message) (id : ListId) : Message :=
  match message with
  | .addresses list => .addresses (list.copy id)
  | other => other

/-- Whether two messages say the same, whatever is known of their encodings. -/
def same : Message → Message → Bool
  | .ping _ left, .ping _ right => left == right
  | .pong _ left, .pong _ right => left == right
  | .sendAddrV2 _, .sendAddrV2 _ => true
  | .addresses left, .addresses right => left.same right
  | .unknown _ leftName left, .unknown _ rightName right => leftName == rightName && left == right
  | _, _ => false

/-- A message as one line of text. -/
def text : Message → String
  | .ping _ (some nonce) => "ping: " ++ toString nonce.toNat
  | .ping _ none => "ping"
  | .pong _ nonce => "pong: " ++ toString nonce.toNat
  | .sendAddrV2 _ => "sendaddrv2"
  | .addresses list => list.text
  | .unknown _ name payload => "Unknown message [" ++ name ++ "]: " ++ Text.hex payload

end Message

end PeerProtocol
