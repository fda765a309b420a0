import PeerProtocol.Proofs.Frame.Sequence

/-!
# Pings

A whole frame at the front of what a peer is offered is found at once, whatever follows it
(`look_ofPayload`). So a ping is decoded with its nonce (`decode_pingFrame`, `look_pingFrame`), and
where the target refuses its pong, the offer fails with this error and nothing is queued
(`receive_pingFrame`).
-/

namespace PeerProtocol.Peer

open PeerProtocol.Frame (transcript)

/-- The frame of a ping. -/
def pingFrame (dialect : Dialect) (nonce : UInt64) : Bytes :=
  let payload := Bytes.littleEndian 8 nonce.toNat
  dialect.network.magic ++ Header.encode (Text.utf8 "ping") payload ++ payload

/-- What the frame of a ping is decoded as. -/
def decodedPing (dialect : Dialect) (nonce : UInt64) : Message :=
  .ping (.parsed dialect (Bytes.littleEndian 8 nonce.toNat) 0 8) (some nonce)

/-- A nonce is framed under the name of a ping as this. -/
theorem ofPayload_ping (dialect : Dialect) (nonce : UInt64) :
    Frame.ofPayload dialect "ping" (Bytes.littleEndian 8 nonce.toNat) =
      .ok (pingFrame dialect nonce) :=
  Frame.ofPayload_of_fits (by rw [Bytes.length_littleEndian]; decide) (by decide) (by decide)
    dialect

/-- A ping is framed as this. -/
theorem ofMessage_newPing (dialect : Dialect) (nonce : UInt64) :
    (Frame.ofMessage dialect (.newPing dialect nonce)).1 = .ok (pingFrame dialect nonce) := by
  rw [← ofPayload_ping]
  exact Frame.ofMessage_of_fields rfl rfl (by rw [Bytes.length_littleEndian]; decide) dialect

/-- A ping is decoded with its nonce behind noise, whatever follows. -/
theorem decode_pingFrame {dialect : Dialect} {noise : Bytes}
    (hnoise : ¬ dialect.network.magic <:+: noise) (nonce : UInt64) (tail : Bytes) (id : ListId) :
    Frame.decode dialect id (noise ++ pingFrame dialect nonce ++ tail) =
      .ok (some (decodedPing dialect nonce, noise.length + (pingFrame dialect nonce).length)) := by
  rw [Frame.decode_ofPayload rfl (ofPayload_ping dialect nonce) hnoise]
  simp [decodedPing, Message.parse, Command.ofName, Message.parseNonce_littleEndian, Except.map]

/-- A ping's frame is a sound stream. -/
theorem transcript_pingFrame (dialect : Dialect) (first : ListId) (nonce : UInt64) :
    (transcript dialect first (pingFrame dialect nonce)).error = none := by
  have hcoherent : (Message.newPing dialect nonce).Coherent := (Message.Made.ping ..).coherent
  have hframed : Framed dialect [Message.newPing dialect nonce] (pingFrame dialect nonce) :=
    .singleton hcoherent (Prod.ext (ofMessage_newPing dialect nonce) rfl)
  exact (hframed.transcript_eq rfl first).2

/-- A whole frame is found, if none is in progress. -/
theorem look_ofPayload {peer : Peer} (hidle : peer.pending = none) {command : String}
    {payload frame : Bytes} (hframe : Frame.ofPayload peer.dialect command payload = .ok frame)
    (tail : Bytes) :
    peer.look (frame ++ tail) =
      peer.lookInto ⟨command, payload.length, checksum payload⟩ payload tail := by
  obtain ⟨hsize, hname, hzero, rfl⟩ := Frame.ofPayload_eq_ok hframe
  have hheader := Header.length_encode hname payload
  have hdecode := Header.decode_encode hname hzero hsize
  -- From here on only the length of the header and what it is read as matter.
  generalize Header.encode (Text.utf8 command) payload = raw at hheader hdecode ⊢
  have hbuffer : peer.dialect.network.magic ++ (raw ++ payload) ++ tail =
      peer.dialect.network.magic ++ (raw ++ (payload ++ tail)) := by
    simp only [List.append_assoc]
  have hseek : peer.dialect.network.seekMagic
      (peer.dialect.network.magic ++ (raw ++ (payload ++ tail))) = .found 4 :=
    peer.dialect.network.seekMagic_magic _
  have hraw : Bytes.split? Header.length
      ((peer.dialect.network.magic ++ (raw ++ (payload ++ tail))).drop 4) =
        some (raw, payload ++ tail) := by
    rw [List.drop_left' peer.dialect.network.length_magic]
    exact Bytes.split?_eq_some_iff.2 ⟨rfl, hheader⟩
  have hpayload : Bytes.split? payload.length (payload ++ tail) = some (payload, tail) :=
    Bytes.split?_eq_some_iff.2 ⟨rfl, rfl⟩
  rw [hbuffer]
  simp only [look, hidle, hseek, hraw, hdecode, hpayload]

/-- A ping is found with its nonce. -/
theorem look_pingFrame {peer : Peer} (hidle : peer.pending = none) (nonce : UInt64)
    (tail : Bytes) :
    peer.look (pingFrame peer.dialect nonce ++ tail) =
      .decodes (decodedPing peer.dialect nonce) { peer with nextList := peer.nextList.next }
        tail := by
  rw [look_ofPayload hidle (ofPayload_ping peer.dialect nonce), lookInto,
    Header.message_of_checksum rfl]
  simp [decodedPing, Message.parse, Command.ofName, Message.parseNonce_littleEndian]

/-- A pong that is refused is an error of the peer, which queues nothing. -/
theorem receive_pingFrame {σ : Type} [WriteTarget σ] {peer : Peer} (hidle : peer.pending = none)
    {nonce : UInt64} {target next : σ} {error : LinkError}
    (hwrite : WriteTarget.write target (pongFrame peer.dialect nonce) = (.error error, next)) :
    peer.receive (some target) (pingFrame peer.dialect nonce) =
      ⟨.error error, { peer with nextList := peer.nextList.next }, some next⟩ := by
  have hlook := look_pingFrame hidle nonce []
  rw [List.append_nil] at hlook
  rw [receive_eq, hlook]
  simp only [settle, decodedPing, answer_some, Message.asked?, hwrite, Except.map]

end PeerProtocol.Peer
