import PeerProtocol.Frame
import PeerProtocol.Proofs.Writing

/-!
# Writing frames

A frame is appended to a buffer in five steps, but whatever can go wrong goes wrong before the
first: the payload is encoded in a buffer of its own, and its size and the command are looked at. So
a frame is written as a whole or not at all (`whole_writeMessage`), and a message whose encoding
fails is left as it was. The main statement is `writesTraceless`.
-/

namespace PeerProtocol

open Bytes
open Writing (append ofResult)

namespace Frame

/-- Appends the frame of an encoded payload under a command's name. -/
def write (dialect : Dialect) (command : String) (payload : Bytes) : Writing Unit :=
  let name := Text.utf8 command
  if maxMessageSize < payload.length then throw (.messageTooLarge payload.length)
  else if Header.nameLength < name.length ∨ 0 ∈ name then throw (.invalidCommand command)
  else do
    append dialect.network.magic
    append (name ++ List.replicate (Header.nameLength - name.length) 0)
    append (littleEndian 4 payload.length)
    append (checksum payload)
    append payload

/-- Encodes a message in a buffer of its own and appends the frame; also the message that remembers
its payload. -/
def writeMessage (dialect : Dialect) (message : Message) : Writing Unit × Message :=
  let (result, encoding) := message.encoding.serialize message.writeFields.fresh
  let message := message.withEncoding encoding
  (ofResult result >>= write dialect message.name, message)

/-- A payload is written as a whole frame or not at all. -/
theorem whole_write (dialect : Dialect) (command : String) (payload : Bytes) :
    Writing.Whole (write dialect command payload) (ofPayload dialect command payload) := by
  intro out
  unfold write ofPayload
  dsimp only
  split
  next => exact Writing.on_throw _ out
  next =>
    split
    next => exact Writing.on_throw _ out
    next => simp [Header.encode]

/-- Writing a message leaves the message that framing it leaves. -/
theorem writeMessage_snd (dialect : Dialect) (message : Message) :
    (writeMessage dialect message).2 = (ofMessage dialect message).2 := by
  rw [writeMessage, message.fresh_writeFields]
  rfl

/-- A message is written as a whole frame or not at all. -/
theorem whole_writeMessage (dialect : Dialect) (message : Message) :
    Writing.Whole (writeMessage dialect message).1 (ofMessage dialect message).1 := by
  rw [writeMessage, message.fresh_writeFields]
  exact Writing.whole_bind fun payload => whole_write dialect _ payload

end Frame

/-- An encoding that fails leaves no trace. -/
structure WritesTraceless (dialect : Dialect) : Prop where
  /-- A message is written as a whole frame, or the buffer is left as it was. -/
  message : ∀ message,
    Writing.Whole (Frame.writeMessage dialect message).1 (Frame.ofMessage dialect message).1
  /-- So is an encoded payload under any command. -/
  payload : ∀ command payload,
    Writing.Whole (Frame.write dialect command payload) (Frame.ofPayload dialect command payload)
  /-- An address is written as a whole, or the buffer is left as it was. -/
  address : ∀ address : Address, Writing.Whole address.write address.contribution
  /-- So are the fields of an address. -/
  addressFields : ∀ address : Address, Writing.Whole address.writeFields address.fields
  /-- The payload of a message is what it makes of a buffer of its own, or the error. -/
  fields : ∀ message : Message, message.writeFields.fresh = message.fields
  /-- A message that is not encoded is what it was, and so are the entries of a list with what is
  known of their encodings. -/
  unchanged : ∀ (message after : Message) error,
    message.serialize = (.error error, after) → after = message
  /-- So is a message after a frame that failed because of its encoding. -/
  unframed : ∀ (message after : Message) error,
    message.serialize = (.error error, after) → (Frame.writeMessage dialect message).2 = message
  /-- So is an address that is not encoded. -/
  addressUnchanged : ∀ (address after : Address) error,
    address.serialize = (.error error, after) → after = address
  /-- So is a list by itself. -/
  listUnchanged : ∀ (list after : AddressList) error,
    list.serialize = (.error error, after) → after = list

/-- No encoding that fails leaves a trace, in whatever the bytes should have been written to and in
what should have been encoded. -/
theorem writesTraceless (dialect : Dialect) : WritesTraceless dialect where
  message := Frame.whole_writeMessage dialect
  payload := Frame.whole_write dialect
  address := Address.whole_write
  addressFields := Address.whole_writeFields
  fields := Message.fresh_writeFields
  unchanged _ _ _ h := Message.serialize_eq_error h
  unframed message after error h := by
    rw [Frame.writeMessage_snd, Frame.ofMessage, h]
    exact Message.serialize_eq_error h
  addressUnchanged _ _ _ h := Address.serialize_eq_error h
  listUnchanged _ _ _ h := AddressList.serialize_eq_error h

end PeerProtocol
