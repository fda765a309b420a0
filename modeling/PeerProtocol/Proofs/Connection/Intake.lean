import Mathlib.Algebra.GroupWithZero.Nat
import PeerProtocol.Proofs.Connection.Hearing
import PeerProtocol.Proofs.Connection.Noting
import PeerProtocol.Proofs.Connection.ReadBuffer

/-!
# What a collaborator is offered

A connection takes in a stream through its read buffer: whatever its collaborator consumes, and
however the socket cuts the stream into chunks, what is offered is what has arrived and was not
consumed before, byte for byte. The collaborator may be of any kind, and may be changed between the
turns of the connection, which others write to and ask to close. One turn keeps the buffer sound
(`Sound.turn`), and so does a run. The offers that are kept beside the connection are the calls that
the collaborator gets: a watch notes the same (`Noted.run`). The main statement, `lossless_run`,
says what was offered in a run, that the socket is always handed room, so that reading nothing means
that the stream has ended, and that a collaborator which consumes more than it was offered, or
leaves the buffer full, is never offered anything again.
-/

namespace PeerProtocol

open PeerProtocol.Connection (SocketRead)

/-! ## Sockets -/

/-- What a socket does when it is asked for bytes. -/
inductive SocketAnswer where
  /-- It has none for now. -/
  | blocks
  /-- It is broken. -/
  | fails
  /-- It copies so many bytes, but at least one and no more than there are and as it has room for:
  that is none if there are none left, and also if it is handed no room. -/
  | delivers (count : Nat)

namespace SocketAnswer

/-- What is copied of the rest of a stream into a region of some size. -/
def delivered (rest : Bytes) (free count : Nat) : Bytes :=
  (rest.take (max 1 count)).take free

/-- What a connection takes an answer for: it takes no bytes for the end of the stream. -/
def read (rest : Bytes) (free : Nat) : SocketAnswer → SocketRead
  | .blocks => .nothing
  | .fails => .fails
  | .delivers count =>
    match delivered rest free count with
    | [] => .ended
    | first :: others => .bytes (first :: others)

/-- The bytes that are read are some, they are next in the stream, and there is room for them. -/
theorem read_eq_bytes {answer : SocketAnswer} {rest chunk : Bytes} {free : Nat}
    (h : answer.read rest free = .bytes chunk) : chunk <+: rest ∧ chunk.length ≤ free := by
  cases answer with
  | blocks => cases h
  | fails => cases h
  | delivers count =>
    have hdelivered : delivered rest free count = chunk := by
      rw [read] at h
      split at h
      next => cases h
      next first others hsome => rw [hsome, SocketRead.bytes.inj h]
    rw [← hdelivered]
    unfold delivered
    refine ⟨(List.take_prefix free _).trans (List.take_prefix _ rest), ?_⟩
    rw [List.length_take]
    exact Nat.min_le_left _ _

/-- To read nothing into a region that is not empty means that nothing is left. -/
theorem eq_nil_of_read_eq_ended {answer : SocketAnswer} {rest : Bytes} {free : Nat}
    (hfree : 0 < free) (h : answer.read rest free = .ended) : rest = [] := by
  cases answer with
  | blocks => cases h
  | fails => cases h
  | delivers count =>
    have hdelivered : (delivered rest free count).length = 0 := by
      rw [read] at h
      split at h
      next hnone => rw [hnone, List.length_nil]
      next => cases h
    unfold delivered at hdelivered
    rw [List.length_take, List.length_take] at hdelivered
    refine List.eq_nil_of_length_eq_zero ?_
    omega

end SocketAnswer

/-! ## Offers -/

/-- What a collaborator was offered, how much of the stream had arrived by then, and what it
answered. -/
structure Offer where
  bytes : Bytes
  arrived : Nat
  answer : Except LinkError Nat

namespace Offer

/-- What a watch notes of it. -/
def call (offer : Offer) : Bytes × Except LinkError Nat :=
  (offer.bytes, offer.answer)

/-- How many bytes were consumed. -/
def consumed (offer : Offer) : Nat :=
  match offer.answer with
  | .ok consumed => consumed
  | .error _ => 0

/-- The error that ends a connection with a buffer of some size after this offer, if one does. -/
def error? (capacity : Nat) (offer : Offer) : Option LinkError :=
  match offer.answer with
  | .error error => some error
  | .ok consumed =>
    if offer.bytes.length < consumed then
      some (.rejected (.overconsumed consumed offer.bytes.length))
    else if offer.bytes.length - consumed = capacity then some (.rejected .bufferFull)
    else none

/-- How many bytes were consumed in all of some offers. -/
def totalConsumed (offers : List Offer) : Nat :=
  (offers.map consumed).sum

/-- One more offer adds what was consumed in it. -/
theorem totalConsumed_concat (offers : List Offer) (offer : Offer) :
    totalConsumed (offers ++ [offer]) = totalConsumed offers + offer.consumed := by
  rw [totalConsumed, totalConsumed, List.map_append, List.sum_append, List.map_singleton,
    List.sum_singleton]

/-- One among some offers and a last one is the last one, or among the others. -/
theorem split_concat {offers before after : List Offer} {last offer : Offer}
    (h : offers ++ [last] = before ++ offer :: after) :
    (before = offers ∧ offer = last ∧ after = []) ∨
      ∃ rest, after = rest ++ [last] ∧ offers = before ++ offer :: rest := by
  rcases List.eq_nil_or_concat after with rfl | ⟨rest, other, rfl⟩
  · obtain ⟨hoffers, hlast⟩ := List.append_inj' h rfl
    exact Or.inl ⟨hoffers.symm, (List.cons.inj hlast).1.symm, rfl⟩
  · rw [List.concat_eq_append, ← List.cons_append, ← List.append_assoc] at h
    obtain ⟨hoffers, hlast⟩ := List.append_inj' h rfl
    refine Or.inr ⟨rest, ?_, hoffers⟩
    rw [List.concat_eq_append, (List.cons.inj hlast).1]

end Offer

namespace Connection

variable {γ : Type} [Collaborator γ]

/-- A connection ends with the error of an offer. Without one it keeps what was not consumed, and
that does not fill its buffer. -/
theorem offer_eq (connection : Connection γ) (chunk : Bytes) {offer : Offer}
    (hbytes : offer.bytes = connection.buffered ++ chunk)
    (hanswer : offer.answer = (Collaborator.receive connection.collaborator connection.outbox
      (connection.buffered ++ chunk)).1) :
    (connection.offer chunk).2.capacity = connection.capacity ∧
      (∀ error, offer.error? connection.capacity = some error →
        (connection.offer chunk).1 = .error error) ∧
      (offer.error? connection.capacity = none →
        offer.answer = .ok offer.consumed ∧ offer.consumed ≤ offer.bytes.length ∧
          offer.bytes.length - offer.consumed ≠ connection.capacity ∧
          (connection.offer chunk).1 = .ok () ∧
          (connection.offer chunk).2.buffered = offer.bytes.drop offer.consumed) := by
  rcases hreceived : Collaborator.receive connection.collaborator connection.outbox
    (connection.buffered ++ chunk) with ⟨answer, collaborator, outbox⟩
  rw [hreceived] at hanswer
  rw [offer_eq_answered hreceived]
  unfold answered Offer.error? Offer.consumed
  simp only [hbytes, hanswer, List.length_drop]
  cases answer with
  | error error =>
    refine ⟨rfl, fun _ herror => congrArg _ (Option.some.inj herror), fun hnone => ?_⟩
    cases hnone
  | ok consumed =>
    by_cases hmore : (connection.buffered ++ chunk).length < consumed
    · simp only [if_pos hmore]
      refine ⟨trivial, fun _ herror => congrArg _ (Option.some.inj herror), fun hnone => ?_⟩
      cases hnone
    · by_cases hfull : (connection.buffered ++ chunk).length - consumed = connection.capacity
      · simp only [if_neg hmore, if_pos hfull]
        refine ⟨trivial, fun _ herror => congrArg _ (Option.some.inj herror), fun hnone => ?_⟩
        cases hnone
      · simp only [if_neg hmore, if_neg hfull]
        refine ⟨trivial, fun _ herror => ?_, fun _ =>
          ⟨trivial, Nat.le_of_not_lt hmore, hfull, trivial, trivial⟩⟩
        cases herror

end Connection

/-! ## Intakes -/

/-- A connection with its read buffer in memory, how much of the stream has arrived, what the
collaborator was offered, and the error that ended the reading, if one did. -/
structure Intake (γ : Type) where
  connection : Connection γ
  buffer : ReadBuffer
  arrived : Nat
  offers : List Offer
  failure : Option LinkError

namespace Intake

/-- What happens to an intake. -/
inductive Event (γ : Type) where
  /-- The collaborator is changed from outside. -/
  | becomes (change : γ → γ)
  | write (bytes : Bytes)
  | requestClose
  /-- The connection takes a turn. -/
  | turn (shutdown : Bool) (answer : SocketAnswer) (writes : Option (List Outbox.SocketWrite))

variable {γ : Type}

section

variable [Collaborator γ]

/-- Of a connection that has just been opened. -/
def start (collaborator : γ) : Intake γ where
  connection := Connection.start collaborator
  buffer := ReadBuffer.new (Connection.bufferSize (Collaborator.maxMessageSize collaborator))
  arrived := 0
  offers := []
  failure := none

/-- What the collaborator answers to an offer. -/
def answer (intake : Intake γ) (offered : Bytes) : Except LinkError Nat :=
  (Collaborator.receive intake.connection.collaborator intake.connection.outbox offered).1

/-- The intake after a chunk was stored, what is held was offered, and what was consumed has made
way. -/
def store (intake : Intake γ) (chunk : Bytes) : Intake γ :=
  let stored := intake.buffer.store chunk
  let answer := intake.answer stored.held
  let arrived := intake.arrived + chunk.length
  { intake with
    buffer := stored.settle answer
    arrived := arrived
    offers := intake.offers ++ [⟨stored.held, arrived, answer⟩] }

/-- The intake after what was read. -/
def take (intake : Intake γ) : SocketRead → Intake γ
  | .bytes chunk => intake.store chunk
  | _ => intake

/-- The intake after an event. A turn hands the free region to the socket. -/
def step (stream : Bytes) (intake : Intake γ) : Event γ → Intake γ
  | .becomes change =>
      { intake with connection := { intake.connection with
          collaborator := change intake.connection.collaborator } }
  | .write bytes =>
      { intake with connection := { intake.connection with
          outbox := (intake.connection.outbox.write bytes).2 } }
  | .requestClose =>
      { intake with connection := { intake.connection with
          outbox := intake.connection.outbox.requestClose } }
  | .turn shutdown answer writes =>
      let read := answer.read (stream.drop intake.arrived) intake.buffer.free
      let after := (intake.connection.turn shutdown read writes).1
      match intake.connection.reading shutdown read with
      | none => { intake with connection := after }
      | some (result, _) =>
        { intake.take read with connection := after, failure := LinkError.ofResult? result }

/-- The intake after events in order. -/
def run (stream : Bytes) (intake : Intake γ) (events : List (Event γ)) : Intake γ :=
  events.foldl (step stream) intake

end

/-- What is certain of the intake of a stream through a buffer of some size.

* Each call is offered what has arrived and was not consumed by the calls before.
* Nothing arrives that is not offered at once.
* The buffer holds what has arrived and was not consumed, and is never overfilled.
* As long as the connection is open there is room for the socket, so that reading nothing means that
all of the stream has arrived.
* An error of the collaborator, a claim to have consumed more than was offered, and a buffer that is
left full end the connection, and nothing is offered afterwards. -/
structure Lossless (stream : Bytes) (capacity : Nat) (intake : Intake γ) : Prop where
  offered : ∀ before offer after, intake.offers = before ++ offer :: after →
    Offer.totalConsumed before ≤ offer.arrived ∧ offer.arrived ≤ stream.length ∧
      offer.bytes = (stream.take offer.arrived).drop (Offer.totalConsumed before)
  arrived : intake.arrived = (intake.offers.getLast?.map Offer.arrived).getD 0
  fits : intake.buffer.capacity = capacity ∧ intake.buffer.filled ≤ capacity
  held : intake.connection.isClosed = false →
    intake.buffer.held = intake.connection.buffered ∧
      intake.buffer.held =
        (stream.take intake.arrived).drop (Offer.totalConsumed intake.offers)
  room : intake.connection.isClosed = false → 0 < intake.buffer.free ∧
    ∀ answer : SocketAnswer,
      answer.read (stream.drop intake.arrived) intake.buffer.free = .ended →
        intake.arrived = stream.length
  failed : ∀ before offer after error, intake.offers = before ++ offer :: after →
    offer.answer = .error error →
      after = [] ∧ intake.connection.isClosed = true ∧ intake.failure = some error
  overconsumed : ∀ before offer after consumed, intake.offers = before ++ offer :: after →
    offer.answer = .ok consumed → offer.bytes.length < consumed →
      after = [] ∧ intake.connection.isClosed = true ∧
        intake.failure = some (.rejected (.overconsumed consumed offer.bytes.length))
  full : ∀ before offer after consumed, intake.offers = before ++ offer :: after →
    offer.answer = .ok consumed → offer.bytes.length = capacity + consumed →
      after = [] ∧ intake.connection.isClosed = true ∧
        intake.failure = some (.rejected .bufferFull)

/-! ## The invariant -/

/-- What each turn keeps. As long as the connection is open its left over bytes are held in memory,
they are what has arrived and was not consumed, and they leave room. -/
structure Sound (stream : Bytes) (capacity : Nat) (intake : Intake γ) : Prop where
  arrived_le : intake.arrived ≤ stream.length
  arrived_eq : intake.arrived = (intake.offers.getLast?.map Offer.arrived).getD 0
  capacity_eq : intake.buffer.capacity = capacity
  filled_le : intake.buffer.filled ≤ capacity
  size_eq : intake.connection.capacity = capacity
  offered : ∀ before offer after, intake.offers = before ++ offer :: after →
    Offer.totalConsumed before ≤ offer.arrived ∧ offer.arrived ≤ stream.length ∧
      offer.bytes = (stream.take offer.arrived).drop (Offer.totalConsumed before)
  stopped : ∀ before offer after error, intake.offers = before ++ offer :: after →
    offer.error? capacity = some error →
      after = [] ∧ intake.connection.isClosed = true ∧ intake.failure = some error
  held_eq : intake.connection.isClosed = false →
    intake.buffer.held = intake.connection.buffered
  slice_eq : intake.connection.isClosed = false →
    Offer.totalConsumed intake.offers ≤ intake.arrived ∧
      intake.buffer.held = (stream.take intake.arrived).drop (Offer.totalConsumed intake.offers)
  filled_lt : intake.connection.isClosed = false → intake.buffer.filled < capacity

variable {stream : Bytes} {capacity : Nat} {intake : Intake γ}

/-- An intake stays sound when its connection changes, if that keeps its left over bytes and does
not open again. -/
theorem Sound.congr (h : intake.Sound stream capacity) {after : Connection γ}
    (hcapacity : after.capacity = intake.connection.capacity)
    (hbuffered : after.isClosed = false → after.buffered = intake.connection.buffered)
    (hclosed : intake.connection.isClosed = true → after.isClosed = true) :
    { intake with connection := after }.Sound stream capacity := by
  have hopen (hafter : after.isClosed = false) : intake.connection.isClosed = false := by
    cases hbefore : intake.connection.isClosed with
    | false => rfl
    | true =>
      rw [hclosed hbefore] at hafter
      cases hafter
  refine ⟨h.arrived_le, h.arrived_eq, h.capacity_eq, h.filled_le, hcapacity.trans h.size_eq,
    h.offered, fun before offer rest error hoffers herror => ?_,
    fun hafter => (h.held_eq (hopen hafter)).trans (hbuffered hafter).symm,
    fun hafter => h.slice_eq (hopen hafter), fun hafter => h.filled_lt (hopen hafter)⟩
  obtain ⟨hlast, hend, hfailure⟩ := h.stopped before offer rest error hoffers herror
  exact ⟨hlast, hclosed hend, hfailure⟩

/-- As long as the connection is open, no offer has ended it. -/
theorem Sound.error?_eq_none (h : intake.Sound stream capacity)
    (hopen : intake.connection.isClosed = false) {before after : List Offer} {offer : Offer}
    (hoffers : intake.offers = before ++ offer :: after) : offer.error? capacity = none := by
  cases herror : offer.error? capacity with
  | none => rfl
  | some error =>
    have hclosed := (h.stopped before offer after error hoffers herror).2.1
    rw [hopen] at hclosed
    cases hclosed

/-- Of an open connection that is sound, no failure is known. -/
theorem Sound.failed (h : intake.Sound stream capacity)
    (hopen : intake.connection.isClosed = false) (failure : Option LinkError) :
    { intake with failure := failure }.Sound stream capacity := by
  refine ⟨h.arrived_le, h.arrived_eq, h.capacity_eq, h.filled_le, h.size_eq, h.offered,
    fun before offer after error hoffers herror => ?_, h.held_eq, h.slice_eq, h.filled_lt⟩
  rw [h.error?_eq_none hopen hoffers] at herror
  cases herror

/-- There is room for the socket as long as the connection is open. -/
theorem Sound.free_pos (h : intake.Sound stream capacity)
    (hopen : intake.connection.isClosed = false) : 0 < intake.buffer.free := by
  have hlt := h.filled_lt hopen
  rw [ReadBuffer.free, h.capacity_eq]
  omega

/-- A sound intake is lossless. -/
theorem Sound.lossless (h : intake.Sound stream capacity) : intake.Lossless stream capacity where
  offered := h.offered
  arrived := h.arrived_eq
  fits := ⟨h.capacity_eq, h.filled_le⟩
  held hopen := ⟨h.held_eq hopen, (h.slice_eq hopen).2⟩
  room hopen := by
    refine ⟨h.free_pos hopen, fun answer hended => ?_⟩
    have hrest := SocketAnswer.eq_nil_of_read_eq_ended (h.free_pos hopen) hended
    exact Nat.le_antisymm h.arrived_le (List.drop_eq_nil_iff.1 hrest)
  failed before offer after error hoffers hanswer := by
    refine h.stopped before offer after error hoffers ?_
    rw [Offer.error?, hanswer]
  overconsumed before offer after consumed hoffers hanswer hmore := by
    refine h.stopped before offer after _ hoffers ?_
    rw [Offer.error?, hanswer]
    exact if_pos hmore
  full before offer after consumed hoffers hanswer hleft := by
    refine h.stopped before offer after _ hoffers ?_
    rw [Offer.error?, hanswer]
    simp only [if_neg (by omega : ¬ offer.bytes.length < consumed),
      if_pos (by omega : offer.bytes.length - consumed = capacity)]

/-! ## Events -/

/-- What is held after a chunk was stored is what the connection offers. -/
theorem Sound.held_store_eq (h : intake.Sound stream capacity)
    (hopen : intake.connection.isClosed = false) (chunk : Bytes) :
    (intake.buffer.store chunk).held = intake.connection.buffered ++ chunk := by
  rw [ReadBuffer.held_store (h.capacity_eq.symm ▸ h.filled_le), h.held_eq hopen]

/-- What is held after a chunk was stored is what has arrived by then and was not consumed. -/
theorem Sound.held_store (h : intake.Sound stream capacity)
    (hopen : intake.connection.isClosed = false) {chunk : Bytes}
    (hchunk : chunk <+: stream.drop intake.arrived) :
    (intake.buffer.store chunk).held = (stream.take (intake.arrived + chunk.length)).drop
      (Offer.totalConsumed intake.offers) := by
  obtain ⟨hconsumed, hheld⟩ := h.slice_eq hopen
  have hnext : stream.take (intake.arrived + chunk.length) =
      stream.take intake.arrived ++ chunk := by
    rw [List.take_add, ← List.prefix_iff_eq_take.1 hchunk]
  rw [ReadBuffer.held_store (h.capacity_eq.symm ▸ h.filled_le), hheld, hnext,
    List.drop_append_of_le_length]
  rw [List.length_take]
  exact Nat.le_min.2 ⟨hconsumed, Nat.le_trans hconsumed h.arrived_le⟩

variable [Collaborator γ]

/-- A new intake is sound. -/
theorem sound_start (stream : Bytes) (collaborator : γ) :
    (start collaborator).Sound stream
      (Connection.bufferSize (Collaborator.maxMessageSize collaborator)) where
  arrived_le := Nat.zero_le _
  arrived_eq := rfl
  capacity_eq := ReadBuffer.capacity_new _
  filled_le := Nat.zero_le _
  size_eq := rfl
  offered _ _ _ hoffers := absurd hoffers (by simp [start])
  stopped _ _ _ _ hoffers := absurd hoffers (by simp [start])
  held_eq _ := ReadBuffer.held_new _
  slice_eq _ := ⟨Nat.le_refl 0, rfl⟩
  filled_lt _ := by
    show 0 < Connection.bufferSize _
    unfold Connection.bufferSize
    omega

/-- A chunk that is next in the stream and fits keeps an intake sound, whatever the collaborator
answers, if the connection ends on an error. -/
theorem Sound.store (h : intake.Sound stream capacity)
    (hopen : intake.connection.isClosed = false) {chunk : Bytes}
    (hchunk : chunk <+: stream.drop intake.arrived) (hfits : chunk.length ≤ intake.buffer.free)
    {after : Connection γ}
    (hcapacity : after.capacity = (intake.connection.offer chunk).2.capacity)
    (hbuffered : after.isClosed = false →
      after.buffered = (intake.connection.offer chunk).2.buffered)
    (hclosed : ∀ error, (intake.connection.offer chunk).1 = .error error → after.isClosed = true) :
    { intake.store chunk with
      connection := after
      failure := LinkError.ofResult? (intake.connection.offer chunk).1 }.Sound stream capacity := by
  have hfilled : intake.buffer.filled ≤ intake.buffer.capacity := by
    rw [h.capacity_eq]
    exact h.filled_le
  have hstored : (intake.buffer.store chunk).capacity = capacity := by
    rw [ReadBuffer.capacity_store hfilled hfits, h.capacity_eq]
  have hfull : (intake.buffer.store chunk).filled ≤ (intake.buffer.store chunk).capacity := by
    rw [hstored, ← h.capacity_eq]
    exact ReadBuffer.filled_add_le hfilled hfits
  have hlength := ReadBuffer.length_held hfull
  have hslice := h.held_store hopen hchunk
  have hheld := h.held_store_eq hopen chunk
  have hconsumed := (h.slice_eq hopen).1
  have harrived : intake.arrived + chunk.length ≤ stream.length := by
    have hlengths := hchunk.length_le
    have hbefore := h.arrived_le
    rw [List.length_drop] at hlengths
    omega
  -- The collaborator is offered the same from memory as by its connection.
  obtain ⟨offer, hoffer⟩ : ∃ offer, offer = Offer.mk (intake.buffer.store chunk).held
      (intake.arrived + chunk.length) (intake.answer (intake.buffer.store chunk).held) := ⟨_, rfl⟩
  have hbytes : offer.bytes = (intake.buffer.store chunk).held := by rw [hoffer]
  have hanswer : offer.answer = (Collaborator.receive intake.connection.collaborator
      intake.connection.outbox (intake.connection.buffered ++ chunk)).1 := by
    rw [hoffer, ← hheld]
    rfl
  obtain ⟨hsize, herror, hgood⟩ :=
    intake.connection.offer_eq chunk (hbytes.trans hheld) hanswer
  rw [h.size_eq] at hsize herror hgood
  have hkept (hafter : after.isClosed = false) :
      offer.consumed ≤ (intake.buffer.store chunk).filled ∧
        (intake.buffer.store chunk).filled - offer.consumed ≠ capacity ∧
        after.buffered = (intake.buffer.store chunk).held.drop offer.consumed ∧
        (intake.buffer.store chunk).settle offer.answer =
          (intake.buffer.store chunk).compact offer.consumed := by
    cases hstops : offer.error? capacity with
    | some error =>
      rw [hclosed error (herror error hstops)] at hafter
      cases hafter
    | none =>
      obtain ⟨hok, hle, hroom, -, hleft⟩ := hgood hstops
      rw [hbytes, hlength] at hle hroom
      refine ⟨hle, hroom, ?_, ?_⟩
      · rw [hbuffered hafter, hleft, hbytes]
      · rw [hok, ReadBuffer.settle, if_neg (Nat.not_lt.2 hle)]
  have hoffers : (intake.store chunk).offers = intake.offers ++ [offer] := by rw [hoffer]; rfl
  have hsettled : (intake.store chunk).buffer =
      (intake.buffer.store chunk).settle offer.answer := by rw [hoffer]; rfl
  refine ⟨harrived, ?_, ?_, ?_, hcapacity.trans hsize, ?_, ?_, ?_, ?_, ?_⟩
  · rw [hoffers, List.getLast?_concat, hoffer]
    rfl
  · rw [hsettled, ReadBuffer.capacity_settle hfull, hstored]
  · rw [hsettled]
    exact Nat.le_trans (ReadBuffer.filled_settle_le _ _) (hstored ▸ hfull)
  · rw [hoffers]
    intro before other rest hsplit
    rcases Offer.split_concat hsplit with ⟨rfl, rfl, -⟩ | ⟨_, -, hbefore⟩
    · rw [hoffer]
      exact ⟨Nat.le_trans hconsumed (Nat.le_add_right _ _), harrived, hslice⟩
    · exact h.offered _ _ _ hbefore
  · rw [hoffers]
    intro before other rest error hsplit hstops
    rcases Offer.split_concat hsplit with ⟨-, rfl, hlast⟩ | ⟨_, -, hbefore⟩
    · refine ⟨hlast, hclosed error (herror error hstops), ?_⟩
      rw [herror error hstops]
      rfl
    · rw [h.error?_eq_none hopen hbefore] at hstops
      cases hstops
  · intro hafter
    obtain ⟨-, -, hleft, hcompact⟩ := hkept hafter
    rw [hsettled, hcompact, ReadBuffer.held_compact hfull, hleft]
  · intro hafter
    obtain ⟨hle, -, -, hcompact⟩ := hkept hafter
    rw [hoffers, hsettled, hcompact, ReadBuffer.held_compact hfull, hslice, List.drop_drop,
      Offer.totalConsumed_concat]
    refine ⟨?_, rfl⟩
    rw [← hlength, hslice, List.length_drop, List.length_take] at hle
    show _ ≤ intake.arrived + chunk.length
    omega
  · intro hafter
    obtain ⟨-, hroom, -, hcompact⟩ := hkept hafter
    rw [hsettled, hcompact]
    show (intake.buffer.store chunk).filled - offer.consumed < capacity
    omega

/-- Whatever is read keeps an intake sound, if the connection goes on only if the stream does. -/
theorem Sound.take (h : intake.Sound stream capacity)
    (hopen : intake.connection.isClosed = false) {answer : SocketAnswer} {read : SocketRead}
    (hread : read = answer.read (stream.drop intake.arrived) intake.buffer.free)
    {after : Connection γ} (hcapacity : after.capacity = (intake.connection.read read).2.capacity)
    (hbuffered : after.isClosed = false →
      after.buffered = (intake.connection.read read).2.buffered)
    (hclosed : ∀ error, (intake.connection.read read).1 = .error error → after.isClosed = true) :
    { intake.take read with
      connection := after
      failure := LinkError.ofResult? (intake.connection.read read).1 }.Sound stream capacity := by
  have hnothing (hread : (intake.connection.read read).2 = intake.connection) :
      { intake with
        connection := after
        failure := LinkError.ofResult? (intake.connection.read read).1 }.Sound stream capacity := by
    rw [hread] at hcapacity hbuffered
    have hfailed := h.failed hopen (LinkError.ofResult? (intake.connection.read read).1)
    refine hfailed.congr hcapacity hbuffered fun hend => ?_
    rw [hopen] at hend
    cases hend
  cases read with
  | nothing => exact hnothing rfl
  | ended => exact hnothing rfl
  | fails => exact hnothing rfl
  | bytes chunk =>
    obtain ⟨hchunk, hfits⟩ := SocketAnswer.read_eq_bytes hread.symm
    have hstored := h.store hopen hchunk hfits hcapacity hbuffered fun error herror =>
      hclosed error (congrArg (Except.map fun _ => true) herror)
    have hfailure : LinkError.ofResult? (intake.connection.read (.bytes chunk)).1 =
        LinkError.ofResult? (intake.connection.offer chunk).1 := LinkError.ofResult?_map _ _
    rw [hfailure]
    exact hstored

/-- A turn keeps an intake sound. -/
theorem Sound.turn (h : intake.Sound stream capacity) (shutdown : Bool) (answer : SocketAnswer)
    (writes : Option (List Outbox.SocketWrite)) :
    (intake.step stream (.turn shutdown answer writes)).Sound stream capacity := by
  rw [step]
  generalize hread : answer.read (stream.drop intake.arrived) intake.buffer.free = read
  have htaken {result : Except LinkError Bool} {reached after : Connection γ}
      (hreading : intake.connection.reading shutdown read = some (result, reached))
      (hcapacity : after.capacity = reached.capacity)
      (hbuffered : after.isClosed = false → after.buffered = reached.buffered)
      (hclosed : ∀ error, result = .error error → after.isClosed = true) :
      { intake.take read with
        connection := after
        failure := LinkError.ofResult? result }.Sound stream capacity := by
    obtain ⟨hopen, hresult⟩ := Connection.isClosed_of_reading hreading
    have hsize : after.capacity = (intake.connection.read read).2.capacity := by rwa [hresult]
    have hleft (hafter : after.isClosed = false) :
        after.buffered = (intake.connection.read read).2.buffered := by
      rw [hresult]
      exact hbuffered hafter
    have hstop : ∀ error, (intake.connection.read read).1 = .error error →
        after.isClosed = true := by rwa [hresult]
    have htaken := h.take hopen hread.symm hsize hleft hstop
    rwa [hresult] at htaken
  have hturned := intake.connection.turn_turned shutdown read writes
  generalize (intake.connection.turn shutdown read writes).1 = after at hturned ⊢
  generalize (intake.connection.turn shutdown read writes).2 = sent at hturned
  cases hturned with
  | idle hclosed hreading =>
    simp only [hreading]
    exact h.congr rfl (fun _ => rfl) id
  | ends hopen hreading =>
    obtain ⟨-, hclosed, hbuffered, hcapacity⟩ := intake.connection.close_kept
    simp only [hreading]
    exact h.congr hcapacity (fun _ => hbuffered) fun _ => hclosed
  | @stops result reached hreading =>
    obtain ⟨-, hclosed, hbuffered, hcapacity⟩ := reached.close_kept
    simp only [hreading]
    exact htaken hreading hcapacity (fun _ => hbuffered) fun _ _ => hclosed
  | reads hreading =>
    simp only [hreading]
    exact htaken hreading rfl (fun _ => rfl) nofun
  | @writes reached attempts hreading =>
    obtain ⟨hbuffered, hcapacity⟩ := reached.written_kept attempts
    simp only [hreading]
    exact htaken hreading hcapacity (fun _ => hbuffered) nofun

/-- Every event keeps an intake sound. -/
theorem Sound.step (h : intake.Sound stream capacity) (event : Event γ) :
    (intake.step stream event).Sound stream capacity := by
  cases event with
  | becomes change => exact h.congr rfl (fun _ => rfl) id
  | write bytes =>
    refine h.congr rfl (fun _ => rfl) fun hclosed => ?_
    show (intake.connection.outbox.write bytes).2.closed = true
    rwa [Outbox.closed_write]
  | requestClose => exact h.congr rfl (fun _ => rfl) id
  | turn shutdown answer writes => exact h.turn shutdown answer writes

/-- A run keeps an intake sound. -/
theorem Sound.run (h : intake.Sound stream capacity) (events : List (Event γ)) :
    (intake.run stream events).Sound stream capacity := by
  induction events generalizing intake with
  | nil => exact h
  | cons event events ih => exact ih (h.step event)

/-! ## Calls -/

/-- The intake of the collaborator alone. -/
def forget (intake : Intake (Noting γ)) : Intake γ :=
  ⟨intake.connection.forget, intake.buffer, intake.arrived, intake.offers, intake.failure⟩

/-- What happens to the intake of the collaborator alone, as it happens under a watch. -/
def Event.noting : Event γ → Event (Noting γ)
  | .becomes change => .becomes fun noting =>
      { noting with collaborator := change noting.collaborator }
  | .write bytes => .write bytes
  | .requestClose => .requestClose
  | .turn shutdown answer writes => .turn shutdown answer writes

/-- The watch is not seen in what is read. -/
theorem forget_take (intake : Intake (Noting γ)) (read : SocketRead) :
    (intake.take read).forget = intake.forget.take read := by
  cases read with
  | nothing => rfl
  | ended => rfl
  | fails => rfl
  | bytes chunk => rfl

/-- The watch is not seen in an event. -/
theorem forget_step (stream : Bytes) (intake : Intake (Noting γ)) (event : Event γ) :
    (intake.step stream event.noting).forget = intake.forget.step stream event := by
  cases event with
  | becomes change => rfl
  | write bytes => rfl
  | requestClose => rfl
  | turn shutdown answer writes =>
    have hconnection : intake.forget.connection = intake.connection.forget := rfl
    have hbuffer : intake.forget.buffer = intake.buffer := rfl
    have harrived : intake.forget.arrived = intake.arrived := rfl
    simp only [Event.noting, step, hconnection, hbuffer, harrived, Connection.forget_turn,
      Connection.forget_reading]
    generalize answer.read (stream.drop intake.arrived) intake.buffer.free = read
    cases intake.connection.reading shutdown read with
    | none => rfl
    | some reached =>
      have htaken := intake.forget_take read
      simp only [Option.map_some, ← htaken]
      rfl

/-- The watch is not seen in a run. -/
theorem forget_run (stream : Bytes) (intake : Intake (Noting γ)) (events : List (Event γ)) :
    (intake.run stream (events.map Event.noting)).forget = intake.forget.run stream events := by
  induction events generalizing intake with
  | nil => rfl
  | cons event events ih =>
    rw [List.map_cons]
    show ((intake.step stream event.noting).run stream (events.map Event.noting)).forget = _
    rw [ih, forget_step]
    rfl

/-- The notes of the watch are the offers. -/
def Noted (intake : Intake (Noting γ)) : Prop :=
  intake.connection.collaborator.notes = intake.offers.map Offer.call

/-- What is read is noted as it is kept among the offers. -/
theorem Noted.take {intake : Intake (Noting γ)} (h : intake.Noted)
    (hsound : intake.Sound stream capacity) (hopen : intake.connection.isClosed = false)
    (read : SocketRead) : (intake.connection.read read).2.collaborator.notes =
      (intake.take read).offers.map Offer.call := by
  cases read with
  | nothing => exact h
  | ended => exact h
  | fails => exact h
  | bytes chunk =>
    show (intake.connection.offer chunk).2.collaborator.notes = (intake.offers ++ [_]).map _
    rw [Connection.notes_offer, h, ← hsound.held_store_eq hopen chunk, List.map_append]
    rfl

/-- A turn leaves the notes of the watch the offers. -/
theorem Noted.turn {intake : Intake (Noting γ)} (h : intake.Noted)
    (hsound : intake.Sound stream capacity) (shutdown : Bool) (answer : SocketAnswer)
    (writes : Option (List Outbox.SocketWrite)) :
    (intake.step stream (.turn shutdown answer writes)).Noted := by
  rw [step]
  generalize answer.read (stream.drop intake.arrived) intake.buffer.free = read
  have htaken {result : Except LinkError Bool} {reached : Connection (Noting γ)}
      (hreading : intake.connection.reading shutdown read = some (result, reached)) :
      reached.collaborator.notes = (intake.take read).offers.map Offer.call := by
    obtain ⟨hopen, hread⟩ := Connection.isClosed_of_reading hreading
    rw [← h.take hsound hopen read, hread]
  have hturned := intake.connection.turn_turned shutdown read writes
  generalize (intake.connection.turn shutdown read writes).1 = after at hturned ⊢
  generalize (intake.connection.turn shutdown read writes).2 = sent at hturned
  cases hturned with
  | idle hclosed hreading =>
    simp only [hreading]
    exact h
  | ends hopen hreading =>
    simp only [hreading]
    exact (Connection.notes_close _).trans h
  | stops hreading =>
    simp only [hreading]
    exact (Connection.notes_close _).trans (htaken hreading)
  | reads hreading =>
    simp only [hreading]
    exact htaken hreading
  | writes attempts hreading =>
    simp only [hreading]
    exact (Connection.notes_written _ attempts).trans (htaken hreading)

/-- An event leaves the notes of the watch the offers. -/
theorem Noted.step {intake : Intake (Noting γ)} (h : intake.Noted)
    (hsound : intake.Sound stream capacity) (event : Event γ) :
    (intake.step stream event.noting).Noted := by
  cases event with
  | becomes change => exact h
  | write bytes => exact h
  | requestClose => exact h
  | turn shutdown answer writes => exact h.turn hsound shutdown answer writes

/-- A run leaves the notes of the watch the offers. -/
theorem Noted.run {intake : Intake (Noting γ)} (h : intake.Noted)
    (hsound : intake.Sound stream capacity) (events : List (Event γ)) :
    (intake.run stream (events.map Event.noting)).Noted := by
  induction events generalizing intake with
  | nil => exact h
  | cons event events ih => exact ih (h.step hsound event) (hsound.step event.noting)

/-- Whatever happens to the connection of a collaborator, what the collaborator is offered is what
has arrived of the stream and was not consumed, up to the first offer that ends the connection. The
offers are the calls that the collaborator gets: if it is watched, the run is the same, and they are
what the watch notes. -/
theorem lossless_run (collaborator : γ) (stream : Bytes) (events : List (Event γ)) :
    let run := (start collaborator).run stream events
    let noted := (start (Noting.mk collaborator [])).run stream (events.map Event.noting)
    run.Lossless stream (Connection.bufferSize (Collaborator.maxMessageSize collaborator)) ∧
      noted.forget = run ∧
      noted.connection.collaborator.notes = run.offers.map Offer.call := by
  intro run noted
  have hforget : noted.forget = run := forget_run stream (start ⟨collaborator, []⟩) events
  have hstart : (start (Noting.mk collaborator [])).Noted := rfl
  have hnoted : noted.Noted := hstart.run (sound_start stream _) events
  refine ⟨((sound_start stream collaborator).run events).lossless, hforget, ?_⟩
  rw [hnoted, ← hforget]
  rfl

end Intake

end PeerProtocol
