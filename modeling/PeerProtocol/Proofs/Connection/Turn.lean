import PeerProtocol.Connection
import PeerProtocol.Proofs.Connection.Outbox

/-!
# What a turn does

A turn finds the connection ended, ends it, or reads; and after it has read it ends the connection,
leaves it at that, or writes (`turn_turned`). So connections of two kinds of collaborators take the
same turns if they read the same (`Mirrors.turn`). What a connection of a peer makes of the bytes
that it reads is what the peer makes of them after those that were left over (`offer_of_ok`,
`offer_of_error`): a peer leaves too little to fill a read buffer, and never claims more than it was
offered.
-/

namespace PeerProtocol.Connection

section

variable {γ : Type} [Collaborator γ]

/-- What comes of reading in a turn, unless the turn finds the connection ended or ends it. -/
def reading (connection : Connection γ) (shutdown : Bool) (read : SocketRead) :
    Option (Except LinkError Bool × Connection γ) :=
  if connection.isClosed || connection.mustEnd shutdown then none
  else some (connection.read read)

/-- What the answer to offered bytes makes of a connection. -/
def answered (collaborator : γ) (outbox : Outbox) (offered : Bytes) (capacity : Nat) :
    Except LinkError Nat → Except LinkError Unit × Connection γ
  | .error error => (.error error, ⟨collaborator, outbox, offered, capacity⟩)
  | .ok consumed =>
    if offered.length < consumed then
      (.error (.rejected (.overconsumed consumed offered.length)),
        ⟨collaborator, outbox, offered, capacity⟩)
    else if (offered.drop consumed).length = capacity then
      (.error (.rejected .bufferFull), ⟨collaborator, outbox, offered.drop consumed, capacity⟩)
    else (.ok (), ⟨collaborator, outbox, offered.drop consumed, capacity⟩)

/-- What an answer makes of a connection does not depend on the collaborator, but for that it keeps
it. -/
theorem answered_eq (outbox : Outbox) (offered : Bytes) (capacity : Nat)
    (answer : Except LinkError Nat) : ∃ result left, ∀ {γ : Type} (collaborator : γ),
      answered collaborator outbox offered capacity answer =
        (result, ⟨collaborator, outbox, left, capacity⟩) := by
  cases answer with
  | error error => exact ⟨_, _, fun _ => rfl⟩
  | ok consumed =>
    unfold answered
    simp only
    split
    next => exact ⟨_, _, fun _ => rfl⟩
    next =>
      split
      next => exact ⟨_, _, fun _ => rfl⟩
      next => exact ⟨_, _, fun _ => rfl⟩

/-- What comes of an offer depends on the collaborator by what it answers and by what becomes of the
outbox. -/
theorem offer_eq_answered {connection : Connection γ} {chunk : Bytes}
    {answer : Except LinkError Nat} {collaborator : γ} {outbox : Outbox}
    (h : Collaborator.receive connection.collaborator connection.outbox
      (connection.buffered ++ chunk) = (answer, collaborator, outbox)) :
    connection.offer chunk =
      answered collaborator outbox (connection.buffered ++ chunk) connection.capacity answer := by
  unfold Connection.offer
  simp only [h]
  cases answer with
  | error error => rfl
  | ok consumed => rfl

/-- An offer leaves the collaborator and the outbox as the call does, and the size of the buffer. -/
theorem offer_kept (connection : Connection γ) (chunk : Bytes) :
    (connection.offer chunk).2.collaborator = (Collaborator.receive connection.collaborator
        connection.outbox (connection.buffered ++ chunk)).2.1 ∧
      (connection.offer chunk).2.outbox = (Collaborator.receive connection.collaborator
        connection.outbox (connection.buffered ++ chunk)).2.2 ∧
      (connection.offer chunk).2.capacity = connection.capacity := by
  rcases hreceived : Collaborator.receive connection.collaborator connection.outbox
    (connection.buffered ++ chunk) with ⟨answer, collaborator, outbox⟩
  obtain ⟨result, left, hanswered⟩ :=
    answered_eq outbox (connection.buffered ++ chunk) connection.capacity answer
  rw [offer_eq_answered hreceived, hanswered]
  exact ⟨rfl, rfl, rfl⟩

/-- After writing, a connection whose socket failed ends. -/
def written (connection : Connection γ) (attempts : List Outbox.SocketWrite) : Connection γ :=
  let flushed := connection.outbox.flush attempts
  let connection := { connection with outbox := flushed.outbox }
  if flushed.failed then connection.close else connection

/-- The ways in which a turn may go: the connection that it leaves and the bytes that it sends. -/
inductive Turned (connection : Connection γ) (shutdown : Bool) (read : SocketRead) :
    Connection γ → Bytes → Prop where
  | idle (hclosed : connection.isClosed = true)
      (hreading : connection.reading shutdown read = none) :
      Turned connection shutdown read connection []
  | ends (hopen : connection.isClosed = false)
      (hreading : connection.reading shutdown read = none) :
      Turned connection shutdown read connection.close []
  | stops {result : Except LinkError Bool} {after : Connection γ}
      (hreading : connection.reading shutdown read = some (result, after)) :
      Turned connection shutdown read after.close []
  | reads {after : Connection γ}
      (hreading : connection.reading shutdown read = some (.ok true, after)) :
      Turned connection shutdown read after []
  | writes {after : Connection γ} (attempts : List Outbox.SocketWrite)
      (hreading : connection.reading shutdown read = some (.ok true, after)) :
      Turned connection shutdown read (after.written attempts) (after.outbox.flush attempts).sent

/-- A turn goes in one of these ways. -/
theorem turn_turned (connection : Connection γ) (shutdown : Bool) (read : SocketRead)
    (writes : Option (List Outbox.SocketWrite)) :
    Turned connection shutdown read (connection.turn shutdown read writes).1
      (connection.turn shutdown read writes).2 := by
  unfold turn
  split
  next hclosed =>
    refine .idle hclosed ?_
    rw [reading, hclosed]
    rfl
  next hopen =>
    rw [Bool.not_eq_true] at hopen
    split
    next hend =>
      refine .ends hopen ?_
      rw [reading, hend, Bool.or_true]
      rfl
    next hgoesOn =>
      rw [Bool.not_eq_true] at hgoesOn
      have hreading : connection.reading shutdown read = some (connection.read read) := by
        rw [reading, hopen, hgoesOn]
        rfl
      simp only
      split
      next error after hread =>
        rw [hread] at hreading
        exact .stops hreading
      next after hread =>
        rw [hread] at hreading
        exact .stops hreading
      next after hread =>
        rw [hread] at hreading
        split
        next attempts =>
          split
          next => exact .writes attempts hreading
          next => exact .reads hreading
        next => exact .reads hreading

/-- A connection that has ended does not read. -/
theorem isClosed_of_reading {connection after : Connection γ} {shutdown : Bool} {read : SocketRead}
    {result : Except LinkError Bool}
    (h : connection.reading shutdown read = some (result, after)) :
    connection.isClosed = false ∧ connection.read read = (result, after) := by
  unfold reading at h
  split at h
  next => cases h
  next hgoesOn =>
    refine ⟨?_, Option.some.inj h⟩
    cases hclosed : connection.isClosed with
    | false => rfl
    | true =>
      rw [hclosed, Bool.true_or] at hgoesOn
      exact absurd rfl hgoesOn

/-- Ending a connection closes its outbox and leaves what was left over. -/
theorem close_kept (connection : Connection γ) :
    connection.close.outbox = connection.outbox.close ∧ connection.close.isClosed = true ∧
      connection.close.buffered = connection.buffered ∧
      connection.close.capacity = connection.capacity := by
  unfold close
  split
  next hclosed =>
    refine ⟨?_, hclosed, rfl, rfl⟩
    unfold Outbox.close
    exact (if_pos hclosed).symm
  next hopen =>
    exact ⟨rfl, connection.outbox.closed_close, rfl, rfl⟩

/-- What a collaborator keeps when it hears of the end, it keeps when its connection is ended. -/
theorem collaborator_close {α : Type} (observe : γ → α)
    (hended : ∀ collaborator, observe (Collaborator.ended collaborator) = observe collaborator)
    (connection : Connection γ) :
    observe connection.close.collaborator = observe connection.collaborator := by
  unfold close
  split
  next => rfl
  next => exact hended connection.collaborator

/-- What a collaborator keeps when it hears of the end, it keeps when its connection writes. -/
theorem collaborator_written {α : Type} (observe : γ → α)
    (hended : ∀ collaborator, observe (Collaborator.ended collaborator) = observe collaborator)
    (connection : Connection γ) (attempts : List Outbox.SocketWrite) :
    observe (connection.written attempts).collaborator = observe connection.collaborator := by
  unfold written
  simp only
  split
  next => exact collaborator_close observe hended _
  next => rfl

/-- Writing leaves what was left over. -/
theorem written_kept (connection : Connection γ) (attempts : List Outbox.SocketWrite) :
    (connection.written attempts).buffered = connection.buffered ∧
      (connection.written attempts).capacity = connection.capacity := by
  unfold written
  simp only
  split
  next => exact (close_kept _).2.2
  next => exact ⟨rfl, rfl⟩

end

/-! ## Connections that mirror each other -/

section

variable {β γ : Type} [Collaborator β] [Collaborator γ]

/-- Connections of two kinds of collaborators are related only if they have the same outbox, and
stay related if both get another outbox, or both end. -/
structure Mirrors (related : Connection β → Connection γ → Prop) : Prop where
  outbox : ∀ {left right}, related left right → left.outbox = right.outbox
  withOutbox : ∀ {left right} (outbox : Outbox), related left right →
    related { left with outbox := outbox } { right with outbox := outbox }
  close : ∀ {left right}, related left right → related left.close right.close

variable {related : Connection β → Connection γ → Prop} {left : Connection β}
  {right : Connection γ}

/-- Related connections are related after they have written, and send the same. -/
theorem Mirrors.written (h : Mirrors related) (hrelated : related left right)
    (attempts : List Outbox.SocketWrite) :
    related (left.written attempts) (right.written attempts) ∧
      (left.outbox.flush attempts).sent = (right.outbox.flush attempts).sent := by
  have houtbox := h.outbox hrelated
  have hflushed := h.withOutbox (right.outbox.flush attempts).outbox hrelated
  unfold Connection.written
  rw [houtbox]
  simp only
  split
  next => exact ⟨h.close hflushed, trivial⟩
  next => exact ⟨hflushed, trivial⟩

/-- Related connections are related after a turn, and send the same, if they are related after they
have read, with the same result. -/
theorem Mirrors.turn (h : Mirrors related) (hrelated : related left right) (shutdown : Bool)
    {read : SocketRead} (writes : Option (List Outbox.SocketWrite))
    (hresult : (left.read read).1 = (right.read read).1)
    (hread : related (left.read read).2 (right.read read).2) :
    related (left.turn shutdown read writes).1 (right.turn shutdown read writes).1 ∧
      (left.turn shutdown read writes).2 = (right.turn shutdown read writes).2 := by
  unfold Connection.turn Connection.isClosed mustEnd
  rw [h.outbox hrelated]
  split
  next => exact ⟨hrelated, rfl⟩
  next =>
    split
    next => exact ⟨h.close hrelated, rfl⟩
    next =>
      generalize left.read read = leftRead at hresult hread
      generalize right.read read = rightRead at hresult hread
      obtain ⟨result, after⟩ := leftRead
      obtain ⟨_, reached⟩ := rightRead
      obtain rfl : result = _ := hresult
      cases result with
      | error error => exact ⟨h.close hread, rfl⟩
      | ok goesOn =>
        cases goesOn with
        | false => exact ⟨h.close hread, rfl⟩
        | true =>
          cases writes with
          | none => exact ⟨hread, rfl⟩
          | some attempts =>
            simp only
            split
            next => exact h.written hread attempts
            next => exact ⟨hread, rfl⟩

end

/-! ## Connections of peers -/

/-- Ending a connection closes its outbox and leaves the peer and what was left over. -/
theorem close_spec (connection : Connection Peer) :
    connection.close.outbox = connection.outbox.close ∧ connection.close.isClosed = true ∧
      connection.close.collaborator = connection.collaborator ∧
      connection.close.buffered = connection.buffered ∧
      connection.close.capacity = connection.capacity := by
  obtain ⟨houtbox, hclosed, hbuffered, hcapacity⟩ := connection.close_kept
  exact ⟨houtbox, hclosed, collaborator_close id (fun _ => rfl) connection, hbuffered,
    hcapacity⟩

/-- Writing leaves the peer and what was left over. -/
theorem written_spec (connection : Connection Peer) (attempts : List Outbox.SocketWrite) :
    (connection.written attempts).collaborator = connection.collaborator ∧
      (connection.written attempts).buffered = connection.buffered ∧
      (connection.written attempts).capacity = connection.capacity :=
  ⟨collaborator_written id (fun _ => rfl) connection attempts,
    connection.written_kept attempts⟩

/-- The outbox after offering bytes is the one that the peer wrote to. -/
theorem offer_spec (connection : Connection Peer) (chunk : Bytes) :
    (connection.offer chunk).2.outbox = (connection.collaborator.receive (some connection.outbox)
        (connection.buffered ++ chunk)).target.getD connection.outbox ∧
      (connection.offer chunk).2.collaborator = (connection.collaborator.receive
        (some connection.outbox) (connection.buffered ++ chunk)).peer ∧
      (connection.offer chunk).2.capacity = connection.capacity := by
  obtain ⟨hpeer, houtbox, hcapacity⟩ := connection.offer_kept chunk
  exact ⟨houtbox, hpeer, hcapacity⟩

/-- What a peer leaves unconsumed is what its connection keeps, unless it fills the read buffer. -/
theorem offer_of_ok {connection : Connection Peer} {chunk rest : Bytes} {next : Peer}
    {reached : Outbox}
    (hreceived : connection.collaborator.receive (some connection.outbox)
      (connection.buffered ++ chunk) = ⟨.ok rest, next, some reached⟩)
    (hrest : rest <:+ connection.buffered ++ chunk) (hroom : rest.length < connection.capacity) :
    connection.offer chunk = (.ok (), ⟨next, reached, rest, connection.capacity⟩) := by
  have hanswer : Collaborator.receive connection.collaborator connection.outbox
      (connection.buffered ++ chunk) =
        (.ok ((connection.buffered ++ chunk).length - rest.length), next, reached) := by
    simp only [Collaborator.receive, hreceived, Peer.Received.consumed, Except.map,
      Option.getD_some]
  have hconsumed : ¬ (connection.buffered ++ chunk).length <
      (connection.buffered ++ chunk).length - rest.length := by omega
  -- What is left is the end of what was offered, so dropping what was consumed keeps just that.
  have hkept : (connection.buffered ++ chunk).drop
      ((connection.buffered ++ chunk).length - rest.length) = rest :=
    (List.suffix_iff_eq_drop.1 hrest).symm
  rw [offer_eq_answered hanswer, answered, if_neg hconsumed, hkept, if_neg (Nat.ne_of_lt hroom)]

/-- An error of the peer is an error of its connection. -/
theorem offer_of_error {connection : Connection Peer} {chunk : Bytes} {error : LinkError}
    {next : Peer} {reached : Outbox}
    (hreceived : connection.collaborator.receive (some connection.outbox)
      (connection.buffered ++ chunk) = ⟨.error error, next, some reached⟩) :
    connection.offer chunk =
      (.error error, ⟨next, reached, connection.buffered ++ chunk, connection.capacity⟩) := by
  have hanswer : Collaborator.receive connection.collaborator connection.outbox
      (connection.buffered ++ chunk) = (.error error, next, reached) := by
    simp only [Collaborator.receive, hreceived, Peer.Received.consumed, Except.map,
      Option.getD_some]
  rw [offer_eq_answered hanswer, answered]

/-- Reading leaves the size of the buffer. -/
theorem capacity_read (connection : Connection Peer) (read : SocketRead) :
    (connection.read read).2.capacity = connection.capacity := by
  cases read with
  | bytes chunk => exact (offer_spec connection chunk).2.2
  | _ => rfl

/-- Reading leaves of an outbox what writing pongs leaves. -/
theorem read_preserves (holds : Outbox → Prop) {connection : Connection Peer}
    (hpong : ∀ outbox nonce, holds outbox →
      holds (outbox.write (Peer.pongFrame connection.collaborator.dialect nonce)).2)
    (h : holds connection.outbox) (read : SocketRead) : holds (connection.read read).2.outbox := by
  cases read with
  | nothing => exact h
  | ended => exact h
  | fails => exact h
  | bytes chunk =>
    obtain ⟨houtbox, -, -⟩ := offer_spec connection chunk
    obtain ⟨reached, hreached, hholds⟩ := Peer.receive_target holds hpong rfl h
      (connection.buffered ++ chunk)
    rw [hreached, Option.getD_some] at houtbox
    show holds (connection.offer chunk).2.outbox
    rwa [houtbox]

/-- Reading adds nothing but pongs to the outbox and leaves the dialect. -/
theorem read_answered (connection : Connection Peer) (read : SocketRead) :
    (∃ nonces, Outbox.Answered connection.collaborator.dialect nonces connection.outbox
      (connection.read read).2.outbox) ∧
      (connection.read read).2.collaborator.dialect = connection.collaborator.dialect := by
  have hrefl : Outbox.Answered connection.collaborator.dialect [] connection.outbox
      connection.outbox :=
    ⟨⟨[], (List.append_nil _).symm, rfl⟩, rfl, rfl⟩
  have hanswered := read_preserves
    (fun outbox => ∃ nonces, Outbox.Answered connection.collaborator.dialect nonces
      connection.outbox outbox)
    (fun _ nonce ⟨_, hanswered⟩ => hanswered.write nonce) ⟨[], hrefl⟩ read
  refine ⟨hanswered, ?_⟩
  cases read with
  | nothing => rfl
  | ended => rfl
  | fails => rfl
  | bytes chunk =>
    obtain ⟨-, hpeer, -⟩ := offer_spec connection chunk
    show (connection.offer chunk).2.collaborator.dialect = _
    rw [hpeer]
    have houtcome := connection.collaborator.receive_outcome (some connection.outbox)
      (connection.buffered ++ chunk)
    generalize connection.collaborator.receive (some connection.outbox)
      (connection.buffered ++ chunk) = received at houtcome ⊢
    cases houtcome with
    | waits new hqueued => exact hqueued.dialect
    | breaks new hqueued => exact hqueued.dialect
    | refused new lost hqueued => exact hqueued.dialect

end PeerProtocol.Connection
