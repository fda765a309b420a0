import PeerProtocol.Frame.Header
import PeerProtocol.Frame.Magic
import PeerProtocol.Message

/-!
# Frames

A message on a network is a frame: the magic, a header and the payload. `decode` takes the first
whole frame of a buffer, whatever stands before its magic; `read` pulls the same frame byte by
byte from a source that may end early.
-/

namespace PeerProtocol

namespace Header

/-- The message of a payload that has the header's checksum. -/
def message (dialect : Dialect) (id : ListId) (header : Header) (payload : Bytes) :
    Except CodecError Message :=
  let computed := PeerProtocol.checksum payload
  if computed = header.checksum then Message.parse dialect id header.command payload
  else .error (.checksumMismatch header.checksum computed)

end Header

namespace Frame

/-- The number of bytes of a frame besides the payload. -/
def overhead : Nat := 24

/-- The frame of an encoded payload under a command's name. -/
def ofPayload (dialect : Dialect) (command : String) (payload : Bytes) :
    Except CodecError Bytes :=
  let name := Text.utf8 command
  if maxMessageSize < payload.length then .error (.messageTooLarge payload.length)
  else if Header.nameLength < name.length ∨ 0 ∈ name then .error (.invalidCommand command)
  else .ok (dialect.network.magic ++ Header.encode name payload ++ payload)

/-- A payload that is within the bounds is framed. -/
theorem ofPayload_of_fits {command : String} {payload : Bytes}
    (hsize : payload.length ≤ maxMessageSize)
    (hname : (Text.utf8 command).length ≤ Header.nameLength) (hzero : 0 ∉ Text.utf8 command)
    (dialect : Dialect) :
    ofPayload dialect command payload =
      .ok (dialect.network.magic ++ Header.encode (Text.utf8 command) payload ++ payload) := by
  rw [ofPayload, if_neg (Nat.not_lt.2 hsize), if_neg (not_or.2 ⟨Nat.not_lt.2 hname, hzero⟩)]

/-- The frame of a message, and the message that remembers its payload. -/
def ofMessage (dialect : Dialect) (message : Message) : Except CodecError Bytes × Message :=
  let (result, message) := message.serialize
  (result.bind (ofPayload dialect message.name), message)

/-- A message that keeps no bytes is framed as its fields are. -/
theorem ofMessage_of_fields {message : Message} {payload : Bytes}
    (hcurrent : message.encoding.current? = none) (hfields : message.fields = .ok payload)
    (hsize : payload.length ≤ maxMessageSize) (dialect : Dialect) :
    (ofMessage dialect message).1 = ofPayload dialect message.name payload := by
  have hname (encoding : Encoding) : (message.withEncoding encoding).name = message.name := by
    cases message <;> rfl
  simp only [ofMessage, Message.serialize, Encoding.serialize, hcurrent, hfields,
    if_neg (Nat.not_lt.2 hsize), hname, Except.bind]

/-- The first whole frame's message and the number of bytes up to the frame's end; nothing if the
buffer does not yet hold a whole frame. -/
def decode (dialect : Dialect) (id : ListId) (buffer : Bytes) :
    Except CodecError (Option (Message × Nat)) :=
  match dialect.network.seekMagic buffer with
  | .absent _ => .ok none
  | .found start =>
    match Bytes.split? Header.length (buffer.drop start) with
    | none => .ok none
    | some (raw, rest) => do
        let header ← Header.decode raw
        match Bytes.split? header.size rest with
        | none => pure none
        | some (payload, _) =>
          let message ← header.message dialect id payload
          pure (some (message, start + Header.length + header.size))

/-- What follows the magic in a source, pulled byte by byte with `matched` magic bytes so far. -/
def skipMagic (magic : Bytes) : (matched : Nat) → Bytes → Option Bytes
  | _, [] => none
  | matched, byte :: rest =>
      let matched := MagicSearch.advance magic matched byte
      if matched = magic.length then some rest else skipMagic magic matched rest

/-- The next frame's message from a source, and what the source holds after it. -/
def read (dialect : Dialect) (id : ListId) (source : Bytes) :
    Except CodecError (Message × Bytes) :=
  match skipMagic dialect.network.magic 0 source with
  | none => .error .endOfSource
  | some source =>
    match Bytes.split? Header.length source with
    | none => .error .endOfSource
    | some (raw, source) => do
        let header ← Header.decode raw
        match Bytes.split? header.size source with
        | none => throw .endOfSource
        | some (payload, source) =>
          let message ← header.message dialect id payload
          pure (message, source)

end Frame

end PeerProtocol
