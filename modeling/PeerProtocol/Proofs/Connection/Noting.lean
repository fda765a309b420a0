import PeerProtocol.Proofs.Connection.Turn

/-!
# Collaborators that are watched

Between a connection and its collaborator may stand a watch, which passes on every call and every
answer, and notes what is offered and what is answered. The connection of a watched collaborator
takes the same turns as that of the collaborator alone (`forget_turn`), so the notes tell which
calls the collaborator gets: one for each chunk that is read (`notes_offer`), and none from the end
of the connection or from writing (`notes_close`, `notes_written`).
-/

namespace PeerProtocol

/-- A collaborator that is watched, and for each call the bytes that were offered with the
answer. -/
structure Noting (γ : Type) where
  collaborator : γ
  notes : List (Bytes × Except LinkError Nat)

variable {γ : Type}

instance [Collaborator γ] : Collaborator (Noting γ) where
  maxMessageSize noting := Collaborator.maxMessageSize noting.collaborator
  attached noting := { noting with collaborator := Collaborator.attached noting.collaborator }
  opened noting outbox :=
    let (collaborator, outbox) := Collaborator.opened noting.collaborator outbox
    ({ noting with collaborator := collaborator }, outbox)
  receive noting outbox bytes :=
    let (answer, collaborator, outbox) := Collaborator.receive noting.collaborator outbox bytes
    (answer, ⟨collaborator, noting.notes ++ [(bytes, answer)]⟩, outbox)
  ended noting := { noting with collaborator := Collaborator.ended noting.collaborator }

namespace Connection

/-- The connection of the collaborator alone. -/
def forget (connection : Connection (Noting γ)) : Connection γ :=
  ⟨connection.collaborator.collaborator, connection.outbox, connection.buffered,
    connection.capacity⟩

/-- The watch is not seen in what an answer makes of a connection. -/
theorem forget_answered (noting : Noting γ) (outbox : Outbox) (offered : Bytes) (capacity : Nat)
    (answer : Except LinkError Nat) :
    answered noting.collaborator outbox offered capacity answer =
      ((answered noting outbox offered capacity answer).1,
        (answered noting outbox offered capacity answer).2.forget) ∧
      (answered noting outbox offered capacity answer).2.collaborator = noting := by
  obtain ⟨result, left, hanswered⟩ := answered_eq outbox offered capacity answer
  rw [hanswered, hanswered]
  exact ⟨rfl, rfl⟩

variable [Collaborator γ]

/-- The watch is not seen when a connection ends. -/
theorem forget_close (connection : Connection (Noting γ)) :
    connection.close.forget = connection.forget.close := by
  unfold close
  split
  next hclosed => exact (if_pos hclosed).symm
  next hopen => exact (if_neg hopen).symm

/-- The end of a connection is not noted. -/
theorem notes_close (connection : Connection (Noting γ)) :
    connection.close.collaborator.notes = connection.collaborator.notes :=
  collaborator_close Noting.notes (fun _ => rfl) connection

/-- Writing is not noted. -/
theorem notes_written (connection : Connection (Noting γ)) (attempts : List Outbox.SocketWrite) :
    (connection.written attempts).collaborator.notes = connection.collaborator.notes :=
  collaborator_written Noting.notes (fun _ => rfl) connection attempts

/-- A watched collaborator answers as it does alone, and the call is noted. -/
theorem receive_noting {noting : Noting γ} {outbox reached : Outbox} {bytes : Bytes}
    {answer : Except LinkError Nat} {collaborator : γ}
    (h : Collaborator.receive noting.collaborator outbox bytes =
      (answer, collaborator, reached)) :
    Collaborator.receive noting outbox bytes =
      (answer, ⟨collaborator, noting.notes ++ [(bytes, answer)]⟩, reached) := by
  show (let (answer, collaborator, outbox) :=
      Collaborator.receive noting.collaborator outbox bytes
    (answer, Noting.mk collaborator (noting.notes ++ [(bytes, answer)]), outbox)) = _
  rw [h]

/-- The watch is not seen when bytes are offered. -/
theorem forget_offer (connection : Connection (Noting γ)) (chunk : Bytes) :
    connection.forget.offer chunk =
      ((connection.offer chunk).1, (connection.offer chunk).2.forget) := by
  rcases hreceived : Collaborator.receive connection.collaborator.collaborator connection.outbox
    (connection.buffered ++ chunk) with ⟨answer, collaborator, outbox⟩
  have halone : connection.forget.offer chunk = answered collaborator outbox
      (connection.buffered ++ chunk) connection.capacity answer := offer_eq_answered hreceived
  rw [halone, offer_eq_answered (receive_noting hreceived)]
  exact (forget_answered ⟨collaborator, _⟩ outbox _ _ answer).1

/-- An offer is noted with its answer. -/
theorem notes_offer (connection : Connection (Noting γ)) (chunk : Bytes) :
    (connection.offer chunk).2.collaborator.notes = connection.collaborator.notes ++
      [(connection.buffered ++ chunk, (Collaborator.receive connection.collaborator
        connection.outbox (connection.buffered ++ chunk)).1)] := by
  rcases hreceived : Collaborator.receive connection.collaborator.collaborator connection.outbox
    (connection.buffered ++ chunk) with ⟨answer, collaborator, outbox⟩
  rw [offer_eq_answered (receive_noting hreceived), receive_noting hreceived,
    (forget_answered ⟨collaborator, _⟩ outbox _ _ answer).2]

/-- The watch is not seen when a connection reads. -/
theorem forget_read (connection : Connection (Noting γ)) (read : SocketRead) :
    connection.forget.read read = ((connection.read read).1, (connection.read read).2.forget) := by
  cases read with
  | nothing => rfl
  | ended => rfl
  | fails => rfl
  | bytes chunk =>
    unfold Connection.read
    simp only [forget_offer]

/-- The watch is not seen in whether a turn reads and what comes of it. -/
theorem forget_reading (connection : Connection (Noting γ)) (shutdown : Bool) (read : SocketRead) :
    connection.forget.reading shutdown read =
      (connection.reading shutdown read).map fun reached => (reached.1, reached.2.forget) := by
  unfold reading
  rw [forget_read]
  show (if connection.isClosed || connection.mustEnd shutdown then none else _) = _
  split
  next => rfl
  next => rfl

/-- The connection of a watched collaborator mirrors that of the collaborator alone. -/
theorem mirrors_forget :
    Mirrors fun (left : Connection (Noting γ)) right => left.forget = right where
  outbox h := h ▸ rfl
  withOutbox _ h := h ▸ rfl
  close {left _} h := h ▸ left.forget_close

/-- The watch is not seen in a turn. -/
theorem forget_turn (connection : Connection (Noting γ)) (shutdown : Bool) (read : SocketRead)
    (writes : Option (List Outbox.SocketWrite)) :
    connection.forget.turn shutdown read writes =
      ((connection.turn shutdown read writes).1.forget,
        (connection.turn shutdown read writes).2) := by
  have hread := connection.forget_read read
  obtain ⟨hafter, hsent⟩ := mirrors_forget.turn (rfl : connection.forget = _) shutdown writes
    (congrArg Prod.fst hread).symm (congrArg Prod.snd hread).symm
  exact Prod.ext hafter.symm hsent.symm

end Connection

end PeerProtocol
