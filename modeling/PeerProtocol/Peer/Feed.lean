import PeerProtocol.Peer

/-!
# Feeding a peer

Bytes arrive in chunks. Each chunk is offered after the bytes that the peer left unconsumed, and
what it leaves of them waits for the next chunk. An error ends the connection and with it what
waits.
-/

namespace PeerProtocol

/-- A peer, its write target if it has one, and the bytes that wait for the next chunk. -/
structure Feed (σ : Type) where
  peer : Peer
  target : Option σ
  leftover : Bytes

namespace Feed

variable {σ : Type} [WriteTarget σ]

/-- A peer that has been fed nothing. -/
def new (peer : Peer) : Feed σ := ⟨peer, none, []⟩

/-- One chunk: how many bytes were consumed, or the error. -/
def chunk (feed : Feed σ) (bytes : Bytes) : Except LinkError Nat × Feed σ :=
  let offered := feed.leftover ++ bytes
  let received := feed.peer.receive feed.target offered
  (received.consumed offered,
    ⟨received.peer, received.target, (received.result.toOption).getD []⟩)

/-- Chunks in order, up to the first error. -/
def chunks (feed : Feed σ) : List Bytes → List Nat × Option LinkError × Feed σ
  | [] => ([], none, feed)
  | bytes :: rest =>
    match feed.chunk bytes with
    | (.error error, feed) => ([], some error, feed)
    | (.ok consumed, feed) =>
      let (counts, error, feed) := feed.chunks rest
      (consumed :: counts, error, feed)

end Feed

/-- A byte string cut into pieces of a size, the last of which may be shorter. -/
def Bytes.pieces (size : Nat) (bytes : Bytes) : List Bytes :=
  if _h : size = 0 ∨ bytes = [] then []
  else bytes.take size :: pieces size (bytes.drop size)
termination_by bytes.length
decreasing_by
  have hlength : 0 < bytes.length := List.length_pos_iff.2 fun hnil => _h (.inr hnil)
  have hsize : size ≠ 0 := fun hzero => _h (.inl hzero)
  simp only [List.length_drop]
  omega

end PeerProtocol
