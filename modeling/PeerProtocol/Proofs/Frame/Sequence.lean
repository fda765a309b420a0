import PeerProtocol.Proofs.Frame.RoundTrip
import PeerProtocol.Proofs.Peer.Outlook

/-!
# Frames one after the other

A stream of frames of coherent messages is decoded, by a reader of the same network, as messages
that say the same in normal form, and without an error (`Framed.transcript_eq`).
-/

namespace PeerProtocol

open PeerProtocol.Frame (transcript)

/-- The bytes are the frames that a writer makes of these coherent messages, in order. -/
inductive Framed (writer : Dialect) : List Message → Bytes → Prop where
  | nil : Framed writer [] []
  | cons {message after : Message} {frame : Bytes} {messages : List Message} {stream : Bytes} :
      message.Coherent → Frame.ofMessage writer message = (.ok frame, after) →
      Framed writer messages stream → Framed writer (message :: messages) (frame ++ stream)

namespace Framed

variable {writer reader : Dialect} {messages : List Message} {stream : Bytes}

/-- One frame is a stream. -/
theorem singleton {message after : Message} {frame : Bytes} (hcoherent : message.Coherent)
    (hframe : Frame.ofMessage writer message = (.ok frame, after)) :
    Framed writer [message] frame := by
  have h := cons hcoherent hframe nil
  rwa [List.append_nil] at h

/-- A stream may go on with the frames of more messages. -/
theorem append {more : List Message} {rest : Bytes} (h : Framed writer messages stream)
    (hmore : Framed writer more rest) : Framed writer (messages ++ more) (stream ++ rest) := by
  induction h with
  | nil => exact hmore
  | @cons message after frame messages stream hcoherent hframe _ ih =>
    rw [List.cons_append, List.append_assoc]
    exact cons hcoherent hframe ih

/-- Pongs are framed as the peer frames them. -/
theorem pongs (writer : Dialect) (nonces : List UInt64) :
    Framed writer (nonces.map (Message.newPong writer))
      (nonces.flatMap (Peer.pongFrame writer)) := by
  induction nonces with
  | nil => exact nil
  | cons nonce nonces ih =>
    have hcoherent : (Message.newPong writer nonce).Coherent := (Message.Made.pong ..).coherent
    exact cons hcoherent (Prod.ext (Peer.ofMessage_newPong writer nonce) rfl) ih

/-- The frames are decoded, one after the other, as messages that say the same. -/
theorem transcript_eq (hnetwork : reader.network = writer.network)
    (h : Framed writer messages stream) (id : ListId) :
    (transcript reader id stream).messages.map Message.content =
        messages.map (·.content.normal) ∧
      (transcript reader id stream).error = none := by
  induction h generalizing id with
  | nil =>
    rw [Frame.transcript_of_none rfl]
    exact ⟨rfl, rfl⟩
  | @cons message after frame messages stream hcoherent hframe _ ih =>
    have hnoise : ¬ reader.network.magic <:+: [] := by
      cases reader.network <;> decide
    obtain ⟨read, hread, hcontent⟩ :=
      Frame.decode_ofMessage hnetwork hcoherent hframe hnoise stream id
    rw [List.nil_append, List.length_nil, Nat.zero_add] at hread
    rw [Frame.transcript_of_some hread, List.drop_left]
    obtain ⟨hmessages, herror⟩ := ih id.next
    refine ⟨?_, herror⟩
    rw [Frame.Transcript.messages_after, List.map_append, hmessages, List.map_singleton, hcontent]
    rfl

end Framed

end PeerProtocol
