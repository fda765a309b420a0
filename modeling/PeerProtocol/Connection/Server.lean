import PeerProtocol.Connection

/-!
# Servers

A server accepts sockets. For each it has a factory make a peer, which is announced to the
application at once; only afterwards is the connection opened and the peer's outbox installed.
Between the two the application already holds the peer, but has nothing to write to.
-/

namespace PeerProtocol

/-- An accepted peer as the application sees it. -/
inductive AcceptedPeer where
  /-- Announced, with no outbox yet. -/
  | announced (peer : Peer)
  /-- Driven by an open connection. -/
  | connected (connection : Connection Peer)

namespace AcceptedPeer

/-- Opens the connection of an announced peer. -/
def «open» : AcceptedPeer → AcceptedPeer
  | announced peer => connected (Connection.start peer)
  | connected connection => connected connection

/-- The application asks for the connection to be closed. -/
def requestClose : AcceptedPeer → AcceptedPeer
  | announced peer => announced peer
  | connected connection =>
      connected { connection with
        outbox := (Peer.requestClose (some connection.outbox)).getD connection.outbox }

/-- The application sends a message. -/
def send (message : Message) : AcceptedPeer → Except LinkError Nat × AcceptedPeer
  | announced peer =>
      ((peer.send (none : Option Outbox) message).1, announced peer)
  | connected connection =>
      let (result, _, outbox) := connection.collaborator.send (some connection.outbox) message
      (result, connected { connection with outbox := outbox.getD connection.outbox })

/-- The peer once its connection has ended. A peer that was only announced is opened before. -/
def close (peer : AcceptedPeer) : AcceptedPeer :=
  match peer.open with
  | announced peer => announced peer
  | connected connection => connected connection.close

/-- Whether the connection is open. -/
def isLive : AcceptedPeer → Bool
  | announced _ => false
  | connected connection => !connection.isClosed

end AcceptedPeer

/-- A server: its factory, the peers that it accepted, and whether it still accepts. -/
structure Server where
  factory : PeerFactory
  accepted : List AcceptedPeer
  running : Bool

namespace Server

/-- A server that has just been bound. -/
def new (factory : PeerFactory) : Server := ⟨factory, [], true⟩

/-- A socket arrives; if the factory makes a peer of it, the peer is announced. -/
def arrive (server : Server) (socket : SocketAddress) (firstList : ListId) : Server :=
  if server.running then
    match server.factory.accept? socket firstList with
    | some (_, peer) => { server with accepted := server.accepted ++ [.announced peer] }
    | none => server
  else server

/-- Opens the connection of the announced peer at a position. -/
def openAt (server : Server) (index : Nat) : Server :=
  { server with accepted := server.accepted.modify index AcceptedPeer.open }

/-- The number of connections that are open. -/
def connectedCount (server : Server) : Nat :=
  (server.accepted.filter AcceptedPeer.isLive).length

/-- Stops accepting and ends every connection. -/
def shutdown (server : Server) : Server :=
  { server with running := false, accepted := server.accepted.map AcceptedPeer.close }

end Server

end PeerProtocol
