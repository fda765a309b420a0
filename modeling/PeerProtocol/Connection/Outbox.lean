import PeerProtocol.Peer

/-!
# Outboxes

The writes of one connection that have not yet reached its socket. Writes are sent in the order in
which they were accepted, each as a whole or not at all as far as its ticket is concerned; the
bytes that wait are bounded by a budget. A write above the budget is refused and makes the
connection close once what was accepted before it has been sent.
-/

namespace PeerProtocol

/-- An accepted write and the part of it that has not been sent. -/
structure QueuedWrite where
  ticket : Nat
  unsent : Bytes
deriving DecidableEq

/-- The writes of a connection. `remaining` counts the bytes that wait, `accepted` the writes that
were ever taken, and `resolved` holds the outcome of every ticket that has one. -/
structure Outbox where
  budget : Nat
  queue : List QueuedWrite
  remaining : Nat
  closeRequested : Bool
  closeAfterFlush : Bool
  closed : Bool
  accepted : Nat
  resolved : List (Nat × Except LinkError Unit)

namespace Outbox

/-- The outbox of a connection that carries messages up to a size: one whole frame fits. -/
def new (maxMessageSize : Nat) : Outbox where
  budget := maxMessageSize + Frame.overhead
  queue := []
  remaining := 0
  closeRequested := false
  closeAfterFlush := false
  closed := false
  accepted := 0
  resolved := []

/-- Whether the connection takes no more writes. -/
def isClosing (outbox : Outbox) : Bool :=
  outbox.closed || outbox.closeRequested || outbox.closeAfterFlush

/-- Accepts bytes for sending, or refuses them. -/
def write (outbox : Outbox) (bytes : Bytes) : Except LinkError Nat × Outbox :=
  if outbox.isClosing then (.error .closed, outbox)
  else if outbox.budget < outbox.remaining + bytes.length then
    (.error (.outboundOverflow outbox.remaining bytes.length outbox.budget),
      { outbox with closeAfterFlush := true })
  else
    (.ok outbox.accepted,
      { outbox with
        queue := outbox.queue ++ [⟨outbox.accepted, bytes⟩]
        remaining := outbox.remaining + bytes.length
        accepted := outbox.accepted + 1 })

/-- Asks for the connection to be closed. -/
def requestClose (outbox : Outbox) : Outbox :=
  { outbox with closeRequested := true }

/-- The outcome of a ticket, if it has one yet. -/
def outcome? (outbox : Outbox) (ticket : Nat) : Option (Except LinkError Unit) :=
  outbox.resolved.lookup ticket

instance : WriteTarget Outbox where
  write := write
  requestClose := requestClose

/-- What a socket does with the bytes that it is handed. -/
inductive SocketWrite where
  /-- It takes this many of them, or all if there are fewer. -/
  | accepts (count : Nat)
  /-- It takes none for now. -/
  | blocks
  /-- It is broken. -/
  | fails
deriving DecidableEq, Repr

/-- What came of handing the queue to a socket. -/
structure Flushed where
  outbox : Outbox
  sent : Bytes
  failed : Bool

/-- The leading writes of which nothing is left, and the queue after them. -/
def splitFinished : List QueuedWrite → List Nat × List QueuedWrite
  | [] => ([], [])
  | write :: rest =>
      if write.unsent.isEmpty then
        let (tickets, queue) := splitFinished rest
        (write.ticket :: tickets, queue)
      else ([], write :: rest)

/-- Resolves the leading writes of which nothing is left. -/
def resolveFinished (outbox : Outbox) : Outbox :=
  let (tickets, queue) := splitFinished outbox.queue
  { outbox with
    queue := queue
    resolved := outbox.resolved ++ tickets.map fun ticket => (ticket, .ok ()) }

/-- Hands the queue to a socket that answers each attempt in turn, until the queue is empty, the
socket stops taking bytes, or no answer is left. -/
def flush (outbox : Outbox) : List SocketWrite → Flushed
  | [] => ⟨outbox.resolveFinished, [], false⟩
  | attempt :: attempts =>
    let outbox := outbox.resolveFinished
    match outbox.queue with
    | [] => ⟨outbox, [], false⟩
    | head :: rest =>
      match attempt with
      | .blocks => ⟨outbox, [], false⟩
      | .fails => ⟨outbox, [], true⟩
      | .accepts count =>
        let piece := head.unsent.take count
        let flushed := { outbox with
          queue := { head with unsent := head.unsent.drop count } :: rest
          remaining := outbox.remaining - piece.length }.flush attempts
        { flushed with sent := piece ++ flushed.sent }

/-- Ends the connection: what still waits fails. -/
def close (outbox : Outbox) : Outbox :=
  if outbox.closed then outbox
  else { outbox with
    queue := []
    remaining := 0
    closed := true
    resolved := outbox.resolved ++
      outbox.queue.map fun write => (write.ticket, .error .closed) }

end Outbox

end PeerProtocol
