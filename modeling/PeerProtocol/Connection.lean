import PeerProtocol.Connection.Outbox

/-!
# Connections

One socket and the collaborator that gives its bytes a meaning. The connection takes turns: a turn
ends the connection if that has been asked for, else it reads what the socket has, offers it
together with what was left unconsumed before, and sends what waits. Whatever goes wrong ends the
connection, and the collaborator hears of the end exactly once.
-/

namespace PeerProtocol

/-- What a connection asks of its collaborator. Each callback may write to the outbox. -/
class Collaborator (γ : Type) where
  /-- The largest message that is expected; it sizes the read buffer and the write budget. -/
  maxMessageSize : γ → Nat
  /-- The outbox is installed. -/
  attached : γ → γ
  /-- The connection is open. -/
  opened : γ → Outbox → γ × Outbox
  /-- Bytes have arrived; the answer is how many of them were consumed. -/
  receive : γ → Outbox → Bytes → Except LinkError Nat × γ × Outbox
  /-- The connection has ended. -/
  ended : γ → γ

instance : Collaborator Peer where
  maxMessageSize := Peer.maxMessageSize
  attached peer := peer
  opened peer outbox := (peer, outbox)
  receive peer outbox bytes :=
    let received := peer.receive (some outbox) bytes
    (received.consumed bytes, received.peer, received.target.getD outbox)
  ended peer := peer

/-- A connection: its collaborator, its outbox, and the bytes that were read and not consumed, of
which at most `capacity` fit. -/
structure Connection (γ : Type) where
  collaborator : γ
  outbox : Outbox
  buffered : Bytes
  capacity : Nat

namespace Connection

variable {γ : Type} [Collaborator γ]

/-- The size of the read buffer for messages up to a size. -/
def bufferSize (maxMessageSize : Nat) : Nat :=
  max 4096 (min maxMessageSize 65536)

/-- A connection that has just been opened. -/
def start (collaborator : γ) : Connection γ :=
  let size := Collaborator.maxMessageSize collaborator
  let (collaborator, outbox) :=
    Collaborator.opened (Collaborator.attached collaborator) (Outbox.new size)
  ⟨collaborator, outbox, [], bufferSize size⟩

/-- How many bytes the socket may be asked for. -/
def room (connection : Connection γ) : Nat :=
  connection.capacity - connection.buffered.length

/-- Whether the connection has ended. -/
def isClosed (connection : Connection γ) : Bool :=
  connection.outbox.closed

/-- Ends the connection, unless it has ended before. -/
def close (connection : Connection γ) : Connection γ :=
  if connection.isClosed then connection
  else { connection with
    collaborator := Collaborator.ended connection.collaborator
    outbox := connection.outbox.close }

/-- Whether the next turn ends the connection: on shutdown, on request, or after a refused write
once everything before it has been sent. -/
def mustEnd (connection : Connection γ) (shutdown : Bool) : Bool :=
  shutdown || connection.outbox.closeRequested ||
    (connection.outbox.closeAfterFlush && connection.outbox.queue.isEmpty)

/-- What the socket has to read. -/
inductive SocketRead where
  /-- Nothing for now. -/
  | nothing
  /-- These bytes; there is at least one, and no more than there is room for. -/
  | bytes (chunk : Bytes)
  /-- The end of the stream. -/
  | ended
  /-- The socket is broken. -/
  | fails
deriving DecidableEq

/-- Offers the buffered bytes and those that have just arrived, and keeps what is not consumed. -/
def offer (connection : Connection γ) (chunk : Bytes) : Except LinkError Unit × Connection γ :=
  let offered := connection.buffered ++ chunk
  let (result, collaborator, outbox) :=
    Collaborator.receive connection.collaborator connection.outbox offered
  let connection := { connection with
    collaborator := collaborator, outbox := outbox, buffered := offered }
  match result with
  | .error error => (.error error, connection)
  | .ok consumed =>
    if offered.length < consumed then
      (.error (.rejected (.overconsumed consumed offered.length)), connection)
    else
      let kept := offered.drop consumed
      let connection := { connection with buffered := kept }
      if kept.length = connection.capacity then (.error (.rejected .bufferFull), connection)
      else (.ok (), connection)

/-- What came of reading: whether the stream goes on. -/
def read (connection : Connection γ) : SocketRead → Except LinkError Bool × Connection γ
  | .nothing => (.ok true, connection)
  | .ended => (.ok false, connection)
  | .fails => (.error .socket, connection)
  | .bytes chunk =>
      let (result, connection) := connection.offer chunk
      (result.map fun _ => true, connection)

/-- One turn, given what the socket has to read and, if it can be written to, how it answers the
attempts to write. A connection asks to write only while something waits. The bytes that were
handed to the socket are returned. -/
def turn (connection : Connection γ) (shutdown : Bool) (read : SocketRead)
    (writes : Option (List Outbox.SocketWrite)) : Connection γ × Bytes :=
  if connection.isClosed then (connection, [])
  else if connection.mustEnd shutdown then (connection.close, [])
  else
    let wantsToWrite := !connection.outbox.queue.isEmpty
    match connection.read read with
    | (.error _, connection) => (connection.close, [])
    | (.ok false, connection) => (connection.close, [])
    | (.ok true, connection) =>
      match writes with
      | some attempts =>
        if wantsToWrite then
          let flushed := connection.outbox.flush attempts
          let connection := { connection with outbox := flushed.outbox }
          (if flushed.failed then connection.close else connection, flushed.sent)
        else (connection, [])
      | none => (connection, [])

/-- A stream of bytes towards a connection: those that have arrived, and whether more may come. -/
structure Incoming where
  bytes : Bytes
  ended : Bool

/-- What one turn finds on a stream. -/
def Incoming.read (incoming : Incoming) (room : Nat) : SocketRead :=
  if incoming.bytes.isEmpty then (if incoming.ended then .ended else .nothing)
  else .bytes (incoming.bytes.take room)

/-- At most `fuel` turns against a stream and a socket that takes every write, until there is
nothing to do. -/
def settleWithin (shutdown : Bool) :
    (fuel : Nat) → Connection γ → Incoming → Bytes → Connection γ × Incoming × Bytes
  | 0, connection, incoming, sent => (connection, incoming, sent)
  | fuel + 1, connection, incoming, sent =>
      let waiting := connection.outbox.queue
      let idle := incoming.bytes.isEmpty && !incoming.ended && waiting.isEmpty &&
        !connection.mustEnd shutdown
      if connection.isClosed || idle then (connection, incoming, sent)
      else
        let attempts := waiting.map fun write => Outbox.SocketWrite.accepts write.unsent.length
        let room := connection.room
        let (connection, more) := connection.turn shutdown (incoming.read room) (some attempts)
        settleWithin shutdown fuel connection
          { incoming with bytes := incoming.bytes.drop room } (sent ++ more)

/-- Turns until there is nothing to do, with the bytes that were sent. A turn takes bytes from the
stream, empties the queue, or ends the connection, so their number bounds the turns. -/
def settle (connection : Connection γ) (shutdown : Bool) (incoming : Incoming) :
    Connection γ × Incoming × Bytes :=
  settleWithin shutdown (2 * incoming.bytes.length + connection.outbox.queue.length + 4)
    connection incoming []

end Connection

end PeerProtocol
