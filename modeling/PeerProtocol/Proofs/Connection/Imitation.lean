import PeerProtocol.Proofs.Connection.Course
import PeerProtocol.Proofs.Peer.Answers

/-!
# Puppets imitate collaborators

A collaborator answers to its calls and uses its outbox, and that is all that a connection can see
of it. So a puppet that is told each time to answer and to use its outbox in the same way takes its
connection through the same turns (`Alike.turn`): it sends the same bytes, keeps the same outbox and
the same left over bytes, and ends when the other ends. Whatever collaborator a connection has, and
whatever happens to it, there is a puppet whose connection does the same (`imitated`), so what is
known of the connections of puppets is known of all.
-/

namespace PeerProtocol

/-- A collaborator that changes its outbox by using it only. -/
class Mannerly (γ : Type) [Collaborator γ] : Prop where
  opened : ∀ (collaborator : γ) (outbox : Outbox), ∃ uses : List Outbox.Use,
    (Collaborator.opened collaborator outbox).2 = uses.foldl Outbox.use outbox
  receive : ∀ (collaborator : γ) (outbox : Outbox) (bytes : Bytes), ∃ uses : List Outbox.Use,
    (Collaborator.receive collaborator outbox bytes).2.2 = uses.foldl Outbox.use outbox

/-- A peer does nothing to its outbox but write pongs. -/
instance : Mannerly Peer where
  opened _ _ := ⟨[], rfl⟩
  receive peer outbox bytes := by
    have hpong (target : Outbox) (nonce : UInt64)
        (h : ∃ uses : List Outbox.Use, target = uses.foldl Outbox.use outbox) :
        ∃ uses : List Outbox.Use, (WriteTarget.write target (Peer.pongFrame peer.dialect nonce)).2 =
          uses.foldl Outbox.use outbox := by
      obtain ⟨uses, rfl⟩ := h
      refine ⟨uses ++ [.write (Peer.pongFrame peer.dialect nonce)], ?_⟩
      rw [List.foldl_append]
      rfl
    have hnothing : ∃ uses : List Outbox.Use, outbox = uses.foldl Outbox.use outbox := ⟨[], rfl⟩
    obtain ⟨reached, htarget, huses⟩ := Peer.receive_target
      (fun target => ∃ uses : List Outbox.Use, target = uses.foldl Outbox.use outbox) hpong
      (rfl : peer.dialect = peer.dialect) hnothing bytes
    show ∃ uses : List Outbox.Use,
      (peer.receive (some outbox) bytes).target.getD outbox = uses.foldl Outbox.use outbox
    rw [htarget]
    exact huses

namespace Connection

section

variable {γ : Type}

/-- Two connections that differ in their collaborators at most. -/
structure Alike (imitation : Connection Puppet) (connection : Connection γ) : Prop where
  outbox : imitation.outbox = connection.outbox
  buffered : imitation.buffered = connection.buffered
  capacity : imitation.capacity = connection.capacity

/-- The same answer makes the same of two connections, but for their collaborators. -/
theorem alike_answered (puppet : Puppet) (collaborator : γ) (outbox : Outbox) (offered : Bytes)
    (capacity : Nat) (answer : Except LinkError Nat) :
    (answered puppet outbox offered capacity answer).1 =
        (answered collaborator outbox offered capacity answer).1 ∧
      (answered puppet outbox offered capacity answer).2.Alike
        (answered collaborator outbox offered capacity answer).2 := by
  obtain ⟨result, left, hanswered⟩ := answered_eq outbox offered capacity answer
  rw [hanswered, hanswered]
  exact ⟨rfl, rfl, rfl, rfl⟩

/-- The connection of a puppet that is told how to react to its next call. -/
def told (imitation : Connection Puppet) (reaction : Reaction) : Connection Puppet :=
  { imitation with collaborator := imitation.collaborator.told reaction }

/-- Being told how to react is not seen. -/
theorem Alike.told {imitation : Connection Puppet} {connection : Connection γ}
    (h : imitation.Alike connection) (reaction : Reaction) :
    (imitation.told reaction).Alike connection :=
  ⟨h.outbox, h.buffered, h.capacity⟩

end

variable {γ : Type} [Collaborator γ]

/-- A puppet that expects the same messages can be told to start its connection as a collaborator
does. -/
theorem start_imitated [Mannerly γ] (collaborator : γ) : ∃ uses : List Outbox.Use,
    ∀ puppet : Puppet, puppet.maxMessageSize = Collaborator.maxMessageSize collaborator →
      (start (puppet.told ⟨uses, .ok 0⟩)).Alike (start collaborator) := by
  obtain ⟨uses, huses⟩ := Mannerly.opened (Collaborator.attached collaborator)
    (Outbox.new (Collaborator.maxMessageSize collaborator))
  refine ⟨uses, fun puppet hsize => ⟨?_, rfl, congrArg bufferSize hsize⟩⟩
  show uses.foldl Outbox.use (Outbox.new puppet.maxMessageSize) = _
  rw [hsize]
  exact huses.symm

namespace Alike

variable {imitation : Connection Puppet} {connection : Connection γ}

/-- Connections that are alike are alike when they are ended. -/
theorem close (h : imitation.Alike connection) : imitation.close.Alike connection.close := by
  obtain ⟨houtbox, -, hbuffered, hcapacity⟩ := imitation.close_kept
  obtain ⟨houtbox', -, hbuffered', hcapacity'⟩ := connection.close_kept
  refine ⟨?_, ?_, ?_⟩
  · rw [houtbox, houtbox', h.outbox]
  · rw [hbuffered, hbuffered', h.buffered]
  · rw [hcapacity, hcapacity', h.capacity]

/-- Connections that are alike mirror each other. -/
theorem mirrors : Mirrors (Alike (γ := γ)) where
  outbox h := h.outbox
  withOutbox _ h := ⟨rfl, h.buffered, h.capacity⟩
  close h := h.close

/-- A puppet can be told to answer to bytes as a collaborator does. -/
theorem offer [Mannerly γ] (h : imitation.Alike connection) (chunk : Bytes) :
    ∃ reaction, ((imitation.told reaction).offer chunk).1 = (connection.offer chunk).1 ∧
      ((imitation.told reaction).offer chunk).2.Alike (connection.offer chunk).2 := by
  obtain ⟨houtbox, hbuffered, hcapacity⟩ := h
  obtain ⟨uses, huses⟩ := Mannerly.receive connection.collaborator connection.outbox
    (connection.buffered ++ chunk)
  rcases hreceived : Collaborator.receive connection.collaborator connection.outbox
    (connection.buffered ++ chunk) with ⟨answer, collaborator, outbox⟩
  rw [hreceived] at huses
  refine ⟨⟨uses, answer⟩, ?_⟩
  have himitated : Collaborator.receive (imitation.told ⟨uses, answer⟩).collaborator
      (imitation.told ⟨uses, answer⟩).outbox ((imitation.told ⟨uses, answer⟩).buffered ++ chunk) =
        (answer, (imitation.collaborator.told ⟨uses, answer⟩).note (.call .received),
          uses.foldl Outbox.use imitation.outbox) := rfl
  rw [offer_eq_answered himitated, offer_eq_answered hreceived, houtbox, ← huses]
  show (answered _ _ (imitation.buffered ++ chunk) imitation.capacity _).1 = _ ∧
    (answered _ _ (imitation.buffered ++ chunk) imitation.capacity _).2.Alike _
  rw [hbuffered, hcapacity]
  exact alike_answered _ collaborator outbox _ _ answer

/-- A puppet can be told to read as a collaborator does. -/
theorem read [Mannerly γ] (h : imitation.Alike connection) (read : SocketRead) :
    ∃ reaction, ((imitation.told reaction).read read).1 = (connection.read read).1 ∧
      ((imitation.told reaction).read read).2.Alike (connection.read read).2 := by
  cases read with
  | nothing => exact ⟨⟨[], .ok 0⟩, rfl, h.told _⟩
  | ended => exact ⟨⟨[], .ok 0⟩, rfl, h.told _⟩
  | fails => exact ⟨⟨[], .ok 0⟩, rfl, h.told _⟩
  | bytes chunk =>
    obtain ⟨reaction, hresult, hafter⟩ := h.offer chunk
    exact ⟨reaction, congrArg (Except.map fun _ => true) hresult, hafter⟩

/-- A puppet can be told to take a turn as a collaborator does. -/
theorem turn [Mannerly γ] (h : imitation.Alike connection) (shutdown : Bool) (read : SocketRead)
    (writes : Option (List Outbox.SocketWrite)) :
    ∃ reaction,
      ((imitation.told reaction).turn shutdown read writes).1.Alike
        (connection.turn shutdown read writes).1 ∧
      ((imitation.told reaction).turn shutdown read writes).2 =
        (connection.turn shutdown read writes).2 := by
  obtain ⟨reaction, hresult, hafter⟩ := h.read read
  exact ⟨reaction, mirrors.turn (h.told reaction) shutdown writes hresult hafter⟩

end Alike

/-! ## Lives of connections -/

/-- What happens to a connection after it was started. -/
inductive Occurrence where
  | use (use : Outbox.Use)
  | turn (shutdown : Bool) (read : SocketRead) (writes : Option (List Outbox.SocketWrite))

/-- A connection after something has happened to it, and the bytes that it has sent. -/
def undergo (connection : Connection γ) : Occurrence → Connection γ × Bytes
  | .use use => ({ connection with outbox := connection.outbox.use use }, [])
  | .turn shutdown read writes => connection.turn shutdown read writes

/-- A connection after all this has happened to it, and the bytes that it has sent. -/
def undergoAll (connection : Connection γ) : List Occurrence → Connection γ × Bytes
  | [] => (connection, [])
  | occurrence :: later =>
    let (reached, sent) := connection.undergo occurrence
    let (after, more) := reached.undergoAll later
    (after, sent ++ more)

/-- The connection of a puppet that is told each time how to react, after all this has happened to
it, and the bytes that it has sent. -/
def imitate (imitation : Connection Puppet) :
    List (Occurrence × Reaction) → Connection Puppet × Bytes
  | [] => (imitation, [])
  | (occurrence, reaction) :: later =>
    let (reached, sent) := (imitation.told reaction).undergo occurrence
    let (after, more) := reached.imitate later
    (after, sent ++ more)

variable [Mannerly γ] {imitation : Connection Puppet} {connection : Connection γ}

/-- A puppet can be told to react to whatever happens as a collaborator does. -/
theorem Alike.undergo (h : imitation.Alike connection) (occurrence : Occurrence) :
    ∃ reaction,
      ((imitation.told reaction).undergo occurrence).1.Alike (connection.undergo occurrence).1 ∧
      ((imitation.told reaction).undergo occurrence).2 = (connection.undergo occurrence).2 := by
  cases occurrence with
  | use use =>
    exact ⟨⟨[], .ok 0⟩, ⟨congrArg (Outbox.use · use) h.outbox, h.buffered, h.capacity⟩, rfl⟩
  | turn shutdown read writes => exact h.turn shutdown read writes

/-- Whatever happens to the connection of a collaborator, a puppet can be told to react so that its
connection sends the same bytes, and is in the end alike. -/
theorem Alike.undergoAll (h : imitation.Alike connection) (occurrences : List Occurrence) :
    ∃ reactions : List Reaction, reactions.length = occurrences.length ∧
      (imitation.imitate (occurrences.zip reactions)).1.Alike
        (connection.undergoAll occurrences).1 ∧
      (imitation.imitate (occurrences.zip reactions)).2 =
        (connection.undergoAll occurrences).2 := by
  induction occurrences generalizing imitation connection with
  | nil => exact ⟨[], rfl, h, rfl⟩
  | cons occurrence later ih =>
    obtain ⟨reaction, hreached, hsent⟩ := h.undergo occurrence
    obtain ⟨reactions, hlength, hafter, hmore⟩ := ih hreached
    exact ⟨reaction :: reactions, congrArg Nat.succ hlength, hafter,
      congr (congrArg HAppend.hAppend hsent) hmore⟩

/-- Whatever a collaborator does, there is a puppet whose connection does the same from its start
on. -/
theorem imitated (collaborator : γ) (occurrences : List Occurrence) :
    ∃ (uses : List Outbox.Use) (reactions : List Reaction),
      let puppet := Puppet.new (Collaborator.maxMessageSize collaborator)
      let imitated := (start (puppet.told ⟨uses, .ok 0⟩)).imitate (occurrences.zip reactions)
      imitated.1.Alike ((start collaborator).undergoAll occurrences).1 ∧
        imitated.2 = ((start collaborator).undergoAll occurrences).2 := by
  obtain ⟨uses, hstart⟩ := start_imitated collaborator
  have hsize : (Puppet.new (Collaborator.maxMessageSize collaborator)).maxMessageSize =
      Collaborator.maxMessageSize collaborator := rfl
  obtain ⟨reactions, -, halike, hsent⟩ := (hstart _ hsize).undergoAll occurrences
  exact ⟨uses, reactions, halike, hsent⟩

end Connection

end PeerProtocol
