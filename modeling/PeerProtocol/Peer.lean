import PeerProtocol.Frame

/-!
# Peers

What the bytes of one connection mean. A peer is offered the bytes that have arrived and not yet
been consumed; it skips noise, collects the payload of the current frame, answers pings by itself,
and queues every message for the application. Bytes that may still become a magic or a header are
left unconsumed and offered again.
-/

namespace PeerProtocol

/-- Where a peer's frames go. -/
class WriteTarget (σ : Type) where
  /-- Takes bytes for sending and answers with a ticket for them, or refuses them. -/
  write : σ → Bytes → Except LinkError Nat × σ
  /-- Asks for the connection to be closed. -/
  requestClose : σ → σ

/-- A frame whose header has been read and whose payload is still arriving: the bytes that are
there, the latest first, and the number of those that are missing. -/
structure PartialFrame where
  header : Header
  received : Bytes
  missing : Nat

namespace PartialFrame

/-- A frame of whose payload these bytes are there. -/
def start (header : Header) (payload : Bytes) : PartialFrame :=
  ⟨header, payload.reverse, header.size - payload.length⟩

/-- The bytes of the payload that are there. -/
def payload (frame : PartialFrame) : Bytes :=
  frame.received.reverse

/-- More bytes of the payload, no more than are missing. -/
def extend (frame : PartialFrame) (bytes : Bytes) : PartialFrame :=
  { frame with
    received := bytes.reverseAux frame.received
    missing := frame.missing - bytes.length }

@[simp] theorem header_extend (frame : PartialFrame) (bytes : Bytes) :
    (frame.extend bytes).header = frame.header := rfl

@[simp] theorem missing_extend (frame : PartialFrame) (bytes : Bytes) :
    (frame.extend bytes).missing = frame.missing - bytes.length := rfl

/-- Bytes arrive at the end of the payload. -/
theorem payload_extend (frame : PartialFrame) (bytes : Bytes) :
    (frame.extend bytes).payload = frame.payload ++ bytes := by
  simp [payload, extend, List.reverseAux_eq]

end PartialFrame

/-- One connection's frame in progress and its decoded messages. The lists among the messages are
numbered from `nextList` on; `listening` ends when the application drops its end. -/
structure Peer where
  dialect : Dialect
  pending : Option PartialFrame
  inbox : List Message
  listening : Bool
  nextList : ListId

namespace Peer

/-- The number of decoded messages that may wait for the application. -/
def inboxCapacity : Nat := 1000

/-- A peer that has seen nothing. -/
def new (dialect : Dialect) (firstList : ListId) : Peer :=
  ⟨dialect, none, [], true, firstList⟩

/-- The largest message that a peer expects. -/
def maxMessageSize (_ : Peer) : Nat := PeerProtocol.maxMessageSize

/-- A slot for the write target takes the first one only. -/
def install {σ : Type} (slot : Option σ) (target : σ) : Option σ :=
  slot.or (some target)

/-- Queues a message for the application. -/
def deliver (peer : Peer) (message : Message) : Except LinkError Unit × Peer :=
  if !peer.listening then (.error .closed, peer)
  else if inboxCapacity ≤ peer.inbox.length then (.error (.rejected .inboxFull), peer)
  else (.ok (), { peer with inbox := peer.inbox ++ [message] })

/-- Writes the answer that a message calls for: a pong to a ping with a nonce, if there is a target
to write to. -/
def answer {σ : Type} [WriteTarget σ] (peer : Peer) (target : Option σ) (message : Message) :
    Except LinkError Unit × Option σ :=
  match message, target with
  | .ping _ (some nonce), some target =>
    match (Frame.ofMessage peer.dialect (.newPong peer.dialect nonce)).1 with
    | .error error => (.error (.codec error), some target)
    | .ok frame =>
      let (result, target) := WriteTarget.write target frame
      (result.map fun _ => (), some target)
  | _, _ => (.ok (), target)

/-- Decodes a whole frame, answers its message and queues it. A message whose answer is refused is
not queued. -/
def dispatch {σ : Type} [WriteTarget σ] (peer : Peer) (target : Option σ) (header : Header)
    (payload : Bytes) : Except LinkError Unit × Peer × Option σ :=
  match header.message peer.dialect peer.nextList payload with
  | .error error => (.error (.codec error), peer, target)
  | .ok message =>
    let peer := { peer with nextList := peer.nextList.next }
    match peer.answer target message with
    | (.error error, target) => (.error error, peer, target)
    | (.ok (), target) =>
      let (result, peer) := peer.deliver message
      (result, peer, target)

/-- What a peer made of the bytes it was offered: the bytes that it leaves unconsumed, or the error
that ends the connection. -/
structure Received (σ : Type) where
  result : Except LinkError Bytes
  peer : Peer
  target : Option σ

/-- What a split leaves is no longer than what was split. -/
theorem length_of_split? {count : Nat} {bytes front rest : Bytes}
    (h : Bytes.split? count bytes = some (front, rest)) : rest.length + count = bytes.length := by
  obtain ⟨rfl, rfl⟩ := Bytes.split?_eq_some_iff.1 h
  simp [Nat.add_comm]

/-- Takes frames off bytes at whose start no frame is in progress. -/
def receiveFrames {σ : Type} [WriteTarget σ] (peer : Peer) (target : Option σ) (bytes : Bytes) :
    Received σ :=
  match peer.dialect.network.seekMagic bytes with
  | .absent discard => ⟨.ok (bytes.drop discard), peer, target⟩
  | .found start =>
    match hraw : Bytes.split? Header.length (bytes.drop start) with
    | none => ⟨.ok (bytes.drop (start - 4)), peer, target⟩
    | some (raw, body) =>
      match Header.decode raw with
      | .error error => ⟨.error (.codec error), peer, target⟩
      | .ok header =>
        match _hbody : Bytes.split? header.size body with
        | none => ⟨.ok [], { peer with pending := some (.start header body) }, target⟩
        | some (payload, rest) =>
          match peer.dispatch target header payload with
          | (.error error, peer, target) => ⟨.error error, peer, target⟩
          | (.ok (), peer, target) => receiveFrames peer target rest
termination_by bytes.length
decreasing_by
  have hlength := length_of_split? hraw
  have hrest := length_of_split? _hbody
  simp only [List.length_drop, Header.length] at hlength
  omega

/-- Takes the bytes that have arrived, first for the frame in progress, if there is one. -/
def receive {σ : Type} [WriteTarget σ] (peer : Peer) (target : Option σ) (bytes : Bytes) :
    Received σ :=
  match peer.pending with
  | none => peer.receiveFrames target bytes
  | some frame =>
    match Bytes.split? frame.missing bytes with
    | none => ⟨.ok [], { peer with pending := some (frame.extend bytes) }, target⟩
    | some (piece, rest) =>
      match { peer with pending := none }.dispatch target frame.header
        (frame.extend piece).payload with
      | (.error error, peer, target) => ⟨.error error, peer, target⟩
      | (.ok (), peer, target) => peer.receiveFrames target rest

/-- The number of bytes consumed. -/
def Received.consumed {σ : Type} (received : Received σ) (offered : Bytes) :
    Except LinkError Nat :=
  received.result.map fun rest => offered.length - rest.length

/-- Frames a message and hands it to the target; answers with the target's ticket. -/
def send {σ : Type} [WriteTarget σ] (peer : Peer) (target : Option σ) (message : Message) :
    Except LinkError Nat × Message × Option σ :=
  match target with
  | none => (.error .notRunning, message, none)
  | some target =>
    match Frame.ofMessage peer.dialect message with
    | (.error error, message) => (.error (.codec error), message, some target)
    | (.ok frame, message) =>
      let (result, target) := WriteTarget.write target frame
      (result, message, some target)

/-- The oldest decoded message, if one is waiting. -/
def take? (peer : Peer) : Option (Message × Peer) :=
  match peer.inbox with
  | [] => none
  | message :: rest => some (message, { peer with inbox := rest })

/-- The answers to asking `count` times for the oldest message. -/
def takeMany (peer : Peer) : (count : Nat) → List (Option Message) × Peer
  | 0 => ([], peer)
  | count + 1 =>
    match peer.take? with
    | none => (List.replicate (count + 1) none, peer)
    | some (message, peer) =>
      let (rest, peer) := peer.takeMany count
      (some message :: rest, peer)

/-- The application drops its end: what waits is lost and nothing more is queued. -/
def dropHandle (peer : Peer) : Peer :=
  { peer with listening := false, inbox := [] }

/-- The application asks for the connection to be closed. Without a target nobody hears it. -/
def requestClose {σ : Type} [WriteTarget σ] (target : Option σ) : Option σ :=
  target.map WriteTarget.requestClose

end Peer

/-- What makes a peer of every inbound socket and announces it to the application, as long as the
application listens for announcements. -/
structure PeerFactory where
  dialect : Dialect
  listening : Bool

namespace PeerFactory

/-- A factory with a listening application. -/
def new (dialect : Dialect) : PeerFactory := ⟨dialect, true⟩

/-- A peer for a socket, announced under the socket's address; nobody is made if nobody would hear
of it. -/
def accept? (factory : PeerFactory) (socket : SocketAddress) (firstList : ListId) :
    Option (SocketAddress × Peer) :=
  if factory.listening then some (socket, Peer.new factory.dialect firstList) else none

/-- The application stops listening for announcements. -/
def dropReceiver (factory : PeerFactory) : PeerFactory :=
  { factory with listening := false }

end PeerFactory

end PeerProtocol
