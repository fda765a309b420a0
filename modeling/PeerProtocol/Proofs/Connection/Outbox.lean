import PeerProtocol.Connection.Outbox
import PeerProtocol.Proofs.Peer.Answers

/-!
# What an outbox takes and sends

An outbox that is not closing takes every write that its budget has room for, so it takes as many
pongs as fit (`takesPongs`). What was sent and what waits are together what was accepted, in order
(`Carries`): writing, sending in pieces of any size and closing preserve this, except that closing
gives up what waits, and then an accepted write has failed. What a peer writes by itself are pongs
(`receive_answered`).
-/

namespace PeerProtocol

/-- Whether the error refuses a write for want of room. -/
def LinkError.isOverflow : LinkError → Bool
  | .outboundOverflow .. => true
  | _ => false

namespace Outbox

/-- A write that fits is accepted and waits at the end of the queue. -/
theorem write_of_fits {outbox : Outbox} {bytes : Bytes} (hopen : outbox.isClosing = false)
    (hfits : outbox.remaining + bytes.length ≤ outbox.budget) :
    outbox.write bytes = (.ok outbox.accepted,
      { outbox with
        queue := outbox.queue ++ [⟨outbox.accepted, bytes⟩]
        remaining := outbox.remaining + bytes.length
        accepted := outbox.accepted + 1 }) := by
  have hbudget : ¬ outbox.budget < outbox.remaining + bytes.length := by omega
  simp only [write, hopen, hbudget, if_false, Bool.false_eq_true]

/-- A closing outbox refuses every write and stays as it is. -/
theorem write_of_closing {outbox : Outbox} (h : outbox.isClosing = true) (bytes : Bytes) :
    outbox.write bytes = (.error .closed, outbox) := by
  simp [write, h]

/-- A write above the budget is refused and makes the outbox close once the others are sent. -/
theorem write_of_overflow {outbox : Outbox} {bytes : Bytes} (hopen : outbox.isClosing = false)
    (hover : outbox.budget < outbox.remaining + bytes.length) :
    outbox.write bytes =
      (.error (.outboundOverflow outbox.remaining bytes.length outbox.budget),
        { outbox with closeAfterFlush := true }) := by
  simp [write, hopen, hover]

/-- A write neither opens nor closes an outbox. -/
theorem closed_write (outbox : Outbox) (bytes : Bytes) :
    (outbox.write bytes).2.closed = outbox.closed := by
  unfold write
  split
  next => rfl
  next =>
    split
    next => rfl
    next => rfl

/-- Closing closes. -/
theorem closed_close (outbox : Outbox) : outbox.close.closed = true := by
  unfold close
  split
  next hclosed => exact hclosed
  next => rfl

/-- An outbox takes as many pongs as fit its budget. -/
theorem takesPongs {dialect : Dialect} {count : Nat} {outbox : Outbox}
    (hopen : outbox.isClosing = false)
    (hfits : outbox.remaining + 32 * count ≤ outbox.budget) :
    Peer.TakesPongs dialect count (some outbox) := by
  induction count generalizing outbox with
  | zero => trivial
  | succ count ih =>
    intro nonce
    have hlength := Peer.length_pongFrame dialect nonce
    -- Each pong takes 32 bytes of the budget.
    refine ⟨_, _, write_of_fits hopen (by omega), ih hopen ?_⟩
    show outbox.remaining + (Peer.pongFrame dialect nonce).length + 32 * count ≤ outbox.budget
    omega

/-! ## What waits -/

/-- The bytes of accepted writes that have not been sent. -/
def unsent (outbox : Outbox) : Bytes :=
  outbox.queue.flatMap (·.unsent)

/-- No accepted write has failed. -/
def Intact (outbox : Outbox) : Prop :=
  ∀ outcome ∈ outbox.resolved, outcome.2 = .ok ()

/-- Of the accepted bytes some were sent and the others wait; or the connection has ended after a
beginning of them was sent, and an accepted write has failed. -/
def Carries (outbox : Outbox) (sent stream : Bytes) : Prop :=
  sent ++ outbox.unsent = stream ∨
    sent <+: stream ∧ outbox.closed = true ∧ outbox.queue = [] ∧ ¬ outbox.Intact

/-- What was sent is a beginning of what was accepted. -/
theorem Carries.sent_prefix {outbox : Outbox} {sent stream : Bytes}
    (h : outbox.Carries sent stream) : sent <+: stream := by
  rcases h with h | ⟨h, -⟩
  · exact ⟨outbox.unsent, h⟩
  · exact h

/-- If nothing waits and no write has failed, everything was sent. -/
theorem Carries.sent_eq {outbox : Outbox} {sent stream : Bytes} (h : outbox.Carries sent stream)
    (hqueue : outbox.queue = []) (hintact : outbox.Intact) : sent = stream := by
  rcases h with h | ⟨-, -, -, hfailed⟩
  · have hunsent : outbox.unsent = [] := by
      unfold unsent
      rw [hqueue]
      rfl
    rwa [hunsent, List.append_nil] at h
  · exact absurd hintact hfailed

/-- An open outbox has given up nothing. -/
theorem Carries.of_open {outbox : Outbox} {sent stream : Bytes} (h : outbox.Carries sent stream)
    (hopen : outbox.closed = false) : sent ++ outbox.unsent = stream := by
  rcases h with h | ⟨-, hclosed, -⟩
  · exact h
  · rw [hopen] at hclosed
    cases hclosed

/-- Outboxes with the same queue and the same outcomes carry the same. -/
theorem Carries.congr {outbox other : Outbox} {sent stream : Bytes}
    (h : outbox.Carries sent stream) (hqueue : other.queue = outbox.queue)
    (hclosed : other.closed = outbox.closed) (hresolved : other.resolved = outbox.resolved) :
    other.Carries sent stream := by
  unfold Carries unsent Intact at h ⊢
  rwa [hqueue, hclosed, hresolved]

/-! ## Writing -/

/-- An accepted write takes the next ticket and waits at the end of the queue. -/
theorem write_accepted {outbox after : Outbox} {bytes : Bytes} {ticket : Nat}
    (h : outbox.write bytes = (.ok ticket, after)) :
    outbox.isClosing = false ∧ ticket = outbox.accepted ∧ after = { outbox with
      queue := outbox.queue ++ [⟨outbox.accepted, bytes⟩]
      remaining := outbox.remaining + bytes.length
      accepted := outbox.accepted + 1 } := by
  by_cases hclosing : outbox.isClosing
  · rw [write_of_closing hclosing] at h
    cases (Prod.mk.inj h).1
  · rw [Bool.not_eq_true] at hclosing
    by_cases hover : outbox.budget < outbox.remaining + bytes.length
    · rw [write_of_overflow hclosing hover] at h
      cases (Prod.mk.inj h).1
    · rw [write_of_fits hclosing (Nat.le_of_not_lt hover)] at h
      obtain ⟨hticket, rfl⟩ := Prod.mk.inj h
      exact ⟨hclosing, (Except.ok.inj hticket).symm, rfl⟩

/-- A write is refused because the outbox is closing or because its budget is exceeded; all that
changes is that it closes for want of room. -/
theorem write_refused {outbox after : Outbox} {bytes : Bytes} {error : LinkError}
    (h : outbox.write bytes = (.error error, after)) :
    (error = .closed ∨ error.isOverflow = true) ∧
      after = { outbox with closeAfterFlush := outbox.closeAfterFlush || error.isOverflow } := by
  by_cases hclosing : outbox.isClosing
  · rw [write_of_closing hclosing] at h
    obtain ⟨herror, rfl⟩ := Prod.mk.inj h
    obtain rfl := Except.error.inj herror
    exact ⟨.inl rfl, by simp [LinkError.isOverflow]⟩
  · rw [Bool.not_eq_true] at hclosing
    by_cases hover : outbox.budget < outbox.remaining + bytes.length
    · rw [write_of_overflow hclosing hover] at h
      obtain ⟨herror, rfl⟩ := Prod.mk.inj h
      obtain rfl := Except.error.inj herror
      exact ⟨.inr rfl, by simp [LinkError.isOverflow]⟩
    · rw [write_of_fits hclosing (Nat.le_of_not_lt hover)] at h
      cases (Prod.mk.inj h).1

/-- An accepted write waits at the end of an open outbox. -/
theorem write_eq_ok {outbox after : Outbox} {bytes : Bytes} {ticket : Nat}
    (h : outbox.write bytes = (.ok ticket, after)) :
    outbox.closed = false ∧ after.queue = outbox.queue ++ [⟨ticket, bytes⟩] ∧
      after.closed = outbox.closed ∧ after.resolved = outbox.resolved := by
  obtain ⟨hclosing, rfl, rfl⟩ := write_accepted h
  refine ⟨?_, rfl, rfl, rfl⟩
  cases hclosed : outbox.closed with
  | false => rfl
  | true => simp [isClosing, hclosed] at hclosing

/-- A write is refused because the outbox is closing or because its budget is exceeded, and what
waits is left alone. -/
theorem write_eq_error {outbox after : Outbox} {bytes : Bytes} {error : LinkError}
    (h : outbox.write bytes = (.error error, after)) :
    (error = .closed ∨ ∃ queued requested limit,
        error = .outboundOverflow queued requested limit) ∧
      after.queue = outbox.queue ∧ after.closed = outbox.closed ∧
      after.resolved = outbox.resolved := by
  obtain ⟨hcause, rfl⟩ := write_refused h
  refine ⟨hcause.imp id fun hoverflow => ?_, rfl, rfl, rfl⟩
  cases error with
  | outboundOverflow queued requested limit => exact ⟨queued, requested, limit, rfl⟩
  | _ => cases hoverflow

/-- More writes wait. -/
theorem Carries.append {outbox after : Outbox} {sent stream : Bytes} {writes : List QueuedWrite}
    (h : outbox.Carries sent stream) (hopen : outbox.closed = false)
    (hqueue : after.queue = outbox.queue ++ writes) :
    after.Carries sent (stream ++ writes.flatMap (·.unsent)) := by
  left
  unfold unsent
  rw [hqueue, List.flatMap_append, ← List.append_assoc]
  exact congrArg (· ++ _) (h.of_open hopen)

/-! ## Sending -/

/-- Finished writes have no bytes that wait. -/
theorem unsent_splitFinished (queue : List QueuedWrite) :
    (splitFinished queue).2.flatMap (·.unsent) = queue.flatMap (·.unsent) := by
  induction queue with
  | nil => rfl
  | cons write rest ih =>
    unfold splitFinished
    split
    next hfinished =>
      show (splitFinished rest).2.flatMap (·.unsent) = write.unsent ++ rest.flatMap (·.unsent)
      rw [List.isEmpty_iff.1 hfinished, List.nil_append, ih]
    next => rfl

/-- Resolving finished writes leaves what waits and gives no failures. -/
theorem resolveFinished_spec (outbox : Outbox) :
    outbox.resolveFinished.unsent = outbox.unsent ∧
      outbox.resolveFinished.closed = outbox.closed ∧
      (outbox.resolveFinished.Intact ↔ outbox.Intact) := by
  refine ⟨unsent_splitFinished outbox.queue, rfl, fun h => ?_, fun h => ?_⟩
  · intro outcome houtcome
    exact h outcome (List.mem_append_left _ houtcome)
  · intro outcome houtcome
    rcases List.mem_append.1 houtcome with houtcome | houtcome
    · exact h outcome houtcome
    · obtain ⟨ticket, -, rfl⟩ := List.mem_map.1 houtcome
      rfl

/-- What a socket takes is taken off the front of what waits, whatever pieces it takes. -/
theorem flush_spec (outbox : Outbox) (attempts : List SocketWrite) :
    (outbox.flush attempts).sent ++ (outbox.flush attempts).outbox.unsent = outbox.unsent ∧
      (outbox.flush attempts).outbox.closed = outbox.closed ∧
      ((outbox.flush attempts).outbox.Intact ↔ outbox.Intact) := by
  induction attempts generalizing outbox with
  | nil => exact resolveFinished_spec outbox
  | cons attempt attempts ih =>
    obtain ⟨hunsent, hclosed, hintact⟩ := resolveFinished_spec outbox
    unfold flush
    simp only
    split
    next => exact ⟨hunsent, hclosed, hintact⟩
    next head rest hqueue =>
      cases attempt with
      | blocks => exact ⟨hunsent, hclosed, hintact⟩
      | fails => exact ⟨hunsent, hclosed, hintact⟩
      | accepts count =>
        simp only
        -- The socket takes bytes off the head of the queue, which stays for what is left of it.
        obtain ⟨hsent, hstill, hmore⟩ := ih { outbox.resolveFinished with
          queue := { head with unsent := head.unsent.drop count } :: rest
          remaining := outbox.resolveFinished.remaining - (head.unsent.take count).length }
        refine ⟨?_, hstill.trans hclosed, hmore.trans hintact⟩
        rw [List.append_assoc, hsent, ← hunsent]
        unfold unsent
        rw [hqueue, List.flatMap_cons, List.flatMap_cons, ← List.append_assoc,
          List.take_append_drop]

/-- Sending moves bytes from those that wait to those that were sent. -/
theorem Carries.flush {outbox : Outbox} {sent stream : Bytes} (h : outbox.Carries sent stream)
    (hopen : outbox.closed = false) (attempts : List SocketWrite) :
    (outbox.flush attempts).outbox.Carries (sent ++ (outbox.flush attempts).sent) stream := by
  left
  rw [List.append_assoc, (flush_spec outbox attempts).1]
  exact h.of_open hopen

/-- Closing gives up what waits. -/
theorem Carries.close {outbox : Outbox} {sent stream : Bytes} (h : outbox.Carries sent stream) :
    outbox.close.Carries sent stream := by
  unfold Outbox.close
  split
  next => exact h
  next hopen =>
    have hstream := h.of_open (Bool.not_eq_true _ ▸ hopen)
    cases hqueue : outbox.queue with
    | nil =>
      left
      have hunsent : outbox.unsent = [] := by
        unfold unsent
        rw [hqueue]
        rfl
      rw [hunsent] at hstream
      exact hstream
    | cons write rest =>
      refine Or.inr ⟨⟨outbox.unsent, hstream⟩, rfl, rfl, fun hintact => ?_⟩
      -- Everything that waits is resolved as failed.
      have hfailed := hintact (write.ticket, .error .closed)
        (List.mem_append_right _ (List.mem_map.2 ⟨write, List.mem_cons_self, rfl⟩))
      cases hfailed

/-! ## Pongs -/

/-- The nonce of a pong's frame. -/
def pongNonce (frame : Bytes) : UInt64 :=
  UInt64.ofNat (Bytes.ofLittleEndian (frame.drop Frame.overhead))

/-- A pong's frame ends in its nonce. -/
theorem pongNonce_pongFrame (dialect : Dialect) (nonce : UInt64) :
    pongNonce (Peer.pongFrame dialect nonce) = nonce := by
  have hname : (Text.utf8 "pong").length ≤ Header.nameLength := by decide
  have hfront : (dialect.network.magic ++ Header.encode (Text.utf8 "pong")
      (Bytes.littleEndian 8 nonce.toNat)).length = Frame.overhead := by
    rw [List.length_append, Network.length_magic, Header.length_encode hname]
    rfl
  have hfits : nonce.toNat < Bytes.span 8 := nonce.toNat_lt
  unfold pongNonce Peer.pongFrame
  simp only
  rw [List.drop_left' hfront, Bytes.ofLittleEndian_littleEndian, Nat.mod_eq_of_lt hfits,
    UInt64.ofNat_toNat]

/-- The second outbox is the first after pongs with these nonces were accepted. -/
structure Answered (dialect : Dialect) (nonces : List UInt64) (before after : Outbox) : Prop where
  queue : ∃ writes, after.queue = before.queue ++ writes ∧
    writes.map (·.unsent) = nonces.map (Peer.pongFrame dialect)
  closed : after.closed = before.closed
  resolved : after.resolved = before.resolved

/-- A pong that is written is accepted or leaves what waits alone. -/
theorem Answered.write {dialect : Dialect} {nonces : List UInt64} {before after : Outbox}
    (h : Answered dialect nonces before after) (nonce : UInt64) :
    ∃ more, Answered dialect more before (after.write (Peer.pongFrame dialect nonce)).2 := by
  obtain ⟨⟨writes, hqueue, hwrites⟩, hclosed, hresolved⟩ := h
  cases hwrite : after.write (Peer.pongFrame dialect nonce) with
  | mk result next =>
  cases result with
  | ok ticket =>
    obtain ⟨-, hnext, hstill, houtcomes⟩ := write_eq_ok hwrite
    refine ⟨nonces ++ [nonce], ⟨writes ++ [⟨ticket, Peer.pongFrame dialect nonce⟩], ?_, ?_⟩,
      hstill.trans hclosed, houtcomes.trans hresolved⟩
    · rw [hnext, hqueue, List.append_assoc]
    · rw [List.map_append, List.map_append, hwrites]
      rfl
  | error error =>
    obtain ⟨-, hnext, hstill, houtcomes⟩ := write_eq_error hwrite
    exact ⟨nonces, ⟨writes, hnext.trans hqueue, hwrites⟩, hstill.trans hclosed,
      houtcomes.trans hresolved⟩

/-- What a peer that is offered bytes adds to its outbox are pongs. -/
theorem receive_answered (peer : Peer) (outbox : Outbox) (bytes : Bytes) :
    ∃ reached, (peer.receive (some outbox) bytes).target = some reached ∧
      ∃ nonces, Answered peer.dialect nonces outbox reached := by
  have hnone : ∃ nonces, Answered peer.dialect nonces outbox outbox :=
    ⟨[], ⟨[], (List.append_nil _).symm, rfl⟩, rfl, rfl⟩
  exact Peer.receive_target (fun reached => ∃ nonces, Answered peer.dialect nonces outbox reached)
    (fun target nonce ⟨_, hanswered⟩ => hanswered.write nonce) rfl hnone bytes

end Outbox

end PeerProtocol
