import PeerProtocol.Proofs.Connection.Turn

/-!
# What a receiving connection hears

A connection of a peer hears the bytes that its socket reads: as long as no message was refused,
what was delivered to the application and what the peer has yet to decode are together what the
bytes that have arrived, and all that may follow, decode as (`Hears`). Taking a message and reading
more bytes preserve this (`Hears.take`, `Hears.read`), if the bytes are part of a stream without
errors. So what was delivered is a beginning of what the stream decodes as
(`Hears.delivered_prefix`).
-/

namespace PeerProtocol

open PeerProtocol.Frame (Transcript transcript)

namespace LinkError

/-- Whether the error refuses a message that was decoded: the queue for the application is full, or
the answer to a ping was not accepted. -/
def isRefusal : LinkError → Bool
  | closed | outboundOverflow .. | rejected .inboxFull => true
  | _ => false

/-- The error that a result is, if it is one. -/
def ofResult? {α : Type} : Except LinkError α → Option LinkError
  | .error error => some error
  | .ok _ => none

/-- What a good result is made into does not matter for the error. -/
theorem ofResult?_map {α β : Type} (result : Except LinkError α) (f : α → β) :
    ofResult? (result.map f) = ofResult? result := by
  cases result <;> rfl

end LinkError

namespace Connection

/-- The bytes that a socket has to read. -/
def SocketRead.chunk : SocketRead → Bytes
  | .bytes chunk => chunk
  | _ => []

/-- How a receiving peer stands to the bytes that have arrived, given what was left over of them,
the messages that were delivered and the error that ended the receiving, if one did. As long as no
message was refused, the transcript of these bytes and of all that may follow is what was delivered
and then the outlook of the peer. -/
structure Hears (dialect : Dialect) (first : ListId) (arrived : Bytes) (peer : Peer)
    (buffered : Bytes) (taken : List Message) (failure : Option LinkError) : Prop where
  dialect_eq : peer.dialect = dialect
  listening : peer.listening = true
  cause : ∀ error, failure = some error → error.isRefusal = true ∨ error = .socket
  live : (∀ error, failure = some error → error.isRefusal = false) →
    peer.outlook buffered = .empty ∧ ∀ more, transcript dialect first (arrived ++ more) =
      (peer.outlook (buffered ++ more)).after (taken ++ peer.inbox)
  lost : ∀ error, failure = some error → error.isRefusal = true → ∃ message, ∀ more, ∃ later,
    transcript dialect first (arrived ++ more) =
      Transcript.after (taken ++ peer.inbox ++ [message]) later

variable {dialect : Dialect} {first : ListId} {arrived buffered : Bytes} {peer : Peer}
  {taken : List Message} {failure : Option LinkError}

/-- Before anything has arrived, all is outlook. -/
theorem hears_start (dialect : Dialect) (first : ListId) :
    Hears dialect first [] (Peer.new dialect first) [] [] none where
  dialect_eq := rfl
  listening := rfl
  cause _ herror := by cases herror
  live _ := ⟨Frame.transcript_of_none rfl, fun _ => rfl⟩
  lost _ herror := by cases herror

/-- What was delivered is a beginning of what the bytes that have arrived decode as; it is all of
it if no message was refused. -/
theorem Hears.delivered_prefix (h : Hears dialect first arrived peer buffered taken failure)
    (more : Bytes) :
    taken ++ peer.inbox <+: (transcript dialect first (arrived ++ more)).messages := by
  by_cases hunhindered : ∀ error, failure = some error → error.isRefusal = false
  · rw [(h.live hunhindered).2 more]
    exact ⟨_, rfl⟩
  · obtain ⟨error, herror⟩ := Classical.not_forall.1 hunhindered
    obtain ⟨herror, hrefusal⟩ := Classical.not_imp.1 herror
    -- The refused message comes right after those that were delivered.
    obtain ⟨message, hlost⟩ := h.lost error herror (by simpa using hrefusal)
    obtain ⟨later, hlater⟩ := hlost more
    rw [hlater, Transcript.messages_after, List.append_assoc]
    exact ⟨_, rfl⟩

/-- If no message was refused, what was delivered is what the bytes that have arrived decode as. -/
theorem Hears.delivered_eq (h : Hears dialect first arrived peer buffered taken failure)
    (hunhindered : ∀ error, failure = some error → error.isRefusal = false) :
    (transcript dialect first arrived).messages = taken ++ peer.inbox := by
  obtain ⟨hdone, hlive⟩ := h.live hunhindered
  have harrived := hlive []
  rw [List.append_nil, List.append_nil, hdone] at harrived
  rw [harrived]
  exact List.append_nil _

/-- Taking a message moves it from the queue to the application. -/
theorem Hears.take (h : Hears dialect first arrived peer buffered taken failure)
    {message : Message} {rest : List Message} (hinbox : peer.inbox = message :: rest) :
    Hears dialect first arrived { peer with inbox := rest } buffered (taken ++ [message])
      failure := by
  have hdelivered : taken ++ peer.inbox = taken ++ [message] ++ rest := by
    rw [hinbox, List.append_assoc, List.singleton_append]
  obtain ⟨hdialect, hlistening, hcause, hlive, hlost⟩ := h
  rw [hdelivered] at hlive hlost
  exact ⟨hdialect, hlistening, hcause, hlive, hlost⟩

/-- A refusal of an outbox is a refusal to hear. -/
theorem isRefusal_of_refusal {peer : Peer} {target : Option Outbox} {new : List Message}
    {error : LinkError} (h : Peer.Refusal peer target new error) : error.isRefusal = true := by
  cases h with
  | @write reached nonce error hwrite hpongs =>
    obtain ⟨hcause, -⟩ := Outbox.write_eq_error
      (show reached.write (Peer.pongFrame peer.dialect nonce) = (.error error, _) from
        Prod.ext hwrite rfl)
    rcases hcause with rfl | ⟨queued, requested, limit, rfl⟩ <;> rfl
  | deaf => rfl
  | full => rfl

/-- A peer that is offered a chunk hears it, unless the chunk and all that may follow end in an
error; and if an error comes of it, that is a refusal. -/
theorem Hears.offer {connection : Connection Peer} {chunk more : Bytes}
    (h : Hears dialect first arrived connection.collaborator connection.buffered taken none)
    (hroom : Frame.overhead ≤ connection.capacity)
    (hsound : (transcript dialect first (arrived ++ chunk ++ more)).error = none) :
    Hears dialect first (arrived ++ chunk) (connection.offer chunk).2.collaborator
      (connection.offer chunk).2.buffered taken
      (LinkError.ofResult? (connection.offer chunk).1) ∧
      ∀ error, (connection.offer chunk).1 = .error error → error.isRefusal = true := by
  obtain ⟨hdone, hlive⟩ := h.live (fun _ herror => (nomatch herror))
  have hstream : ∀ more, transcript dialect first (arrived ++ chunk ++ more) =
      (connection.collaborator.outlook (connection.buffered ++ chunk ++ more)).after
        (taken ++ connection.collaborator.inbox) := fun more => by
    rw [List.append_assoc, hlive, List.append_assoc]
  have houtcome := connection.collaborator.receive_outcome (some connection.outbox)
    (connection.buffered ++ chunk)
  obtain ⟨reached, hreached, -⟩ := Outbox.receive_answered connection.collaborator
    connection.outbox (connection.buffered ++ chunk)
  cases hreceived : connection.collaborator.receive (some connection.outbox)
    (connection.buffered ++ chunk) with
  | mk result next target =>
  rw [hreceived] at houtcome hreached
  obtain rfl : target = some reached := hreached
  cases houtcome with
  | @waits _ _ rest new hqueued hrest hshort hnextDone hpongs hnext =>
    have hall := hqueued.append_inbox taken
    rw [offer_of_ok hreceived hrest (Nat.lt_of_lt_of_le hshort hroom)]
    refine ⟨⟨hqueued.dialect.trans h.dialect_eq, hqueued.listening.trans h.listening,
      fun _ herror => (nomatch herror), fun _ => ⟨hnextDone, fun more => ?_⟩,
      fun _ herror => (nomatch herror)⟩, fun _ herror => (nomatch herror)⟩
    rw [hall, hstream, hnext, Transcript.after_after]
  | @breaks _ _ cause new hqueued hnext =>
    -- What has arrived is a beginning of a stream without errors.
    rw [hstream, hnext] at hsound
    cases hsound
  | @refused _ _ error new lost hqueued hrefusal hnext =>
    have hall := hqueued.append_inbox taken
    have hrefused := isRefusal_of_refusal hrefusal
    rw [offer_of_error hreceived]
    refine ⟨⟨hqueued.dialect.trans h.dialect_eq, hqueued.listening.trans h.listening,
      fun _ herror => ?_, fun hunhindered => ?_, fun _ _ _ => ⟨lost, fun more => ?_⟩⟩,
      fun _ herror => ?_⟩
    · obtain rfl := Option.some.inj herror
      exact Or.inl hrefused
    · rw [hunhindered error rfl] at hrefused
      cases hrefused
    · obtain ⟨later, hlater⟩ := hnext more
      refine ⟨later, ?_⟩
      rw [hall, hstream, hlater, Transcript.after_after, ← List.append_assoc]
    · obtain rfl := Except.error.inj herror
      exact hrefused

/-- A peer that reads hears what was read. -/
theorem Hears.read {connection : Connection Peer} {read : SocketRead} {more : Bytes}
    (h : Hears dialect first arrived connection.collaborator connection.buffered taken none)
    (hroom : Frame.overhead ≤ connection.capacity)
    (hsound : (transcript dialect first (arrived ++ read.chunk ++ more)).error = none) :
    Hears dialect first (arrived ++ read.chunk) (connection.read read).2.collaborator
      (connection.read read).2.buffered taken (LinkError.ofResult? (connection.read read).1) := by
  cases read with
  | nothing =>
    show Hears dialect first (arrived ++ []) _ _ _ none
    rwa [List.append_nil]
  | ended =>
    show Hears dialect first (arrived ++ []) _ _ _ none
    rwa [List.append_nil]
  | fails =>
    show Hears dialect first (arrived ++ []) _ _ _ (some .socket)
    rw [List.append_nil]
    refine ⟨h.dialect_eq, h.listening, fun _ herror => ?_, fun _ => ?_, fun _ herror hrefusal => ?_⟩
    · obtain rfl := Option.some.inj herror
      exact Or.inr rfl
    · exact h.live (fun _ herror => (nomatch herror))
    · obtain rfl := Option.some.inj herror
      cases hrefusal
  | bytes chunk =>
    obtain ⟨hoffer, -⟩ := h.offer hroom hsound
    rw [← LinkError.ofResult?_map _ fun _ => true] at hoffer
    exact hoffer

end Connection

end PeerProtocol
