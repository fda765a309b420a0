import PeerProtocol.Peer

/-!
# The steps of a peer

A peer that is offered bytes looks for the next whole frame (`look`), answers the frame's message,
queues it, and looks again at what is left, until there is no whole frame or a step fails
(`receive_eq`). What is shown of these steps is shown of whatever is offered
(`receive_induction`).
-/

namespace PeerProtocol

/-- The nonce that a message asks to be sent back. -/
def Message.asked? : Message → Option UInt64
  | .ping _ nonce => nonce
  | _ => none

namespace Peer

/-! ## Pongs -/

/-- The frame that answers a ping. -/
def pongFrame (dialect : Dialect) (nonce : UInt64) : Bytes :=
  let payload := Bytes.littleEndian 8 nonce.toNat
  dialect.network.magic ++ Header.encode (Text.utf8 "pong") payload ++ payload

/-- A pong's frame is its header and a nonce. -/
theorem length_pongFrame (dialect : Dialect) (nonce : UInt64) :
    (pongFrame dialect nonce).length = 32 := by
  have hname : (Text.utf8 "pong").length ≤ Header.nameLength := by decide
  simp only [pongFrame, List.length_append, Network.length_magic, Header.length_encode hname,
    Bytes.length_littleEndian, Header.length]

/-- A nonce is framed under the name of a pong as its answer. -/
theorem ofPayload_pong (dialect : Dialect) (nonce : UInt64) :
    Frame.ofPayload dialect "pong" (Bytes.littleEndian 8 nonce.toNat) =
      .ok (pongFrame dialect nonce) :=
  Frame.ofPayload_of_fits (by rw [Bytes.length_littleEndian]; decide) (by decide) (by decide)
    dialect

/-- Framing a pong never fails. -/
theorem ofMessage_newPong (dialect : Dialect) (nonce : UInt64) :
    (Frame.ofMessage dialect (.newPong dialect nonce)).1 = .ok (pongFrame dialect nonce) := by
  rw [← ofPayload_pong]
  exact Frame.ofMessage_of_fields rfl rfl (by rw [Bytes.length_littleEndian]; decide) dialect

variable {σ : Type} [WriteTarget σ]

/-- A target is written the pong that a message asks for, and nothing otherwise. -/
theorem answer_some (peer : Peer) (target : σ) (message : Message) :
    peer.answer (some target) message =
      match message.asked? with
      | none => (.ok (), some target)
      | some nonce =>
        let (result, next) := WriteTarget.write target (pongFrame peer.dialect nonce)
        (result.map fun _ => (), some next) := by
  cases message with
  | ping encoding nonce =>
    cases nonce with
    | none => rfl
    | some nonce =>
      simp only [answer, ofMessage_newPong]
      rfl
  | _ => rfl

/-- Without a target nothing is answered. -/
theorem answer_none (peer : Peer) (message : Message) :
    peer.answer (none : Option σ) message = (.ok (), none) := by
  unfold answer
  split
  next heq => cases heq
  next => rfl

/-- An answer is refused where the target refuses the pong. -/
theorem answer_eq_error {peer : Peer} {target reached : Option σ} {message : Message}
    {error : LinkError} (h : peer.answer target message = (.error error, reached)) :
    ∃ before nonce after, target = some before ∧ message.asked? = some nonce ∧
      WriteTarget.write before (pongFrame peer.dialect nonce) = (.error error, after) ∧
      reached = some after := by
  cases target with
  | none => rw [answer_none] at h; cases h
  | some before =>
    rw [answer_some] at h
    cases hasked : message.asked? with
    | none => rw [hasked] at h; cases h
    | some nonce =>
      rw [hasked] at h
      cases hwrite : WriteTarget.write before (pongFrame peer.dialect nonce) with
      | mk result after =>
        cases result with
        | ok ticket => simp [hwrite, Except.map] at h
        | error other =>
          simp only [hwrite, Except.map, Prod.mk.injEq, Except.error.injEq] at h
          obtain ⟨rfl, rfl⟩ := h
          exact ⟨before, nonce, after, rfl, rfl, hwrite, rfl⟩

/-- An answer that is not refused is a pong that the target takes, or none at all. -/
theorem answer_eq_ok {peer : Peer} {target reached : Option σ} {message : Message}
    (h : peer.answer target message = (.ok (), reached)) :
    (∃ before nonce ticket after, target = some before ∧ message.asked? = some nonce ∧
      WriteTarget.write before (pongFrame peer.dialect nonce) = (.ok ticket, after) ∧
      reached = some after) ∨
    (reached = target ∧ ∀ before, target = some before → message.asked? = none) := by
  cases target with
  | none =>
    rw [answer_none] at h
    obtain ⟨-, rfl⟩ := Prod.mk.inj h
    exact .inr ⟨rfl, fun before heq => by cases heq⟩
  | some before =>
    rw [answer_some] at h
    cases hasked : message.asked? with
    | none =>
      rw [hasked] at h
      obtain ⟨-, rfl⟩ := Prod.mk.inj h
      exact .inr ⟨rfl, fun _ _ => rfl⟩
    | some nonce =>
      rw [hasked] at h
      cases hwrite : WriteTarget.write before (pongFrame peer.dialect nonce) with
      | mk result after =>
        cases result with
        | error error => simp [hwrite, Except.map] at h
        | ok ticket =>
          simp only [hwrite, Except.map, Prod.mk.injEq] at h
          obtain ⟨-, rfl⟩ := h
          exact .inl ⟨before, nonce, ticket, after, rfl, rfl, hwrite, rfl⟩

/-! ## The queue -/

/-- A message is queued while there is room and the application listens. -/
theorem deliver_eq_ok {peer next : Peer} {message : Message}
    (h : peer.deliver message = (.ok (), next)) :
    next = { peer with inbox := peer.inbox ++ [message] } ∧ peer.listening = true ∧
      peer.inbox.length < inboxCapacity := by
  unfold deliver at h
  split at h
  next => cases h
  next hlistening =>
    split at h
    next => cases h
    next hroom =>
      obtain ⟨-, rfl⟩ := Prod.mk.inj h
      exact ⟨rfl, by simpa using hlistening, Nat.lt_of_not_le hroom⟩

/-- A message that is not queued leaves the queue as it is. -/
theorem deliver_eq_error {peer next : Peer} {message : Message} {error : LinkError}
    (h : peer.deliver message = (.error error, next)) :
    next = peer ∧ (peer.listening = false ∧ error = .closed ∨
      inboxCapacity ≤ peer.inbox.length ∧ error = .rejected .inboxFull) := by
  unfold deliver at h
  split at h
  next hlistening =>
    simp only [Prod.mk.injEq, Except.error.injEq] at h
    obtain ⟨rfl, rfl⟩ := h
    exact ⟨rfl, .inl ⟨by simpa using hlistening, rfl⟩⟩
  next =>
    split at h
    next hfull =>
      simp only [Prod.mk.injEq, Except.error.injEq] at h
      obtain ⟨rfl, rfl⟩ := h
      exact ⟨rfl, .inr ⟨hfull, rfl⟩⟩
    next => cases h

/-! ## Looking for a frame -/

/-- What a peer finds in bytes. -/
inductive Look where
  /-- There is no whole frame, and these bytes are left for later. -/
  | waits (next : Peer) (rest : Bytes)
  /-- The next frame is broken. -/
  | breaks (next : Peer) (error : CodecError)
  /-- The next frame is whole and holds this message; these bytes are behind it. -/
  | decodes (message : Message) (next : Peer) (rest : Bytes)

/-- A whole frame with bytes behind it. -/
def lookInto (peer : Peer) (header : Header) (payload rest : Bytes) : Look :=
  match header.message peer.dialect peer.nextList payload with
  | .error error => .breaks peer error
  | .ok message => .decodes message { peer with nextList := peer.nextList.next } rest

/-- Looks for the next whole frame, which may be the one in progress. -/
def look (peer : Peer) (bytes : Bytes) : Look :=
  match peer.pending with
  | none =>
    match peer.dialect.network.seekMagic bytes with
    | .absent discard => .waits peer (bytes.drop discard)
    | .found start =>
      match Bytes.split? Header.length (bytes.drop start) with
      | none => .waits peer (bytes.drop (start - 4))
      | some (raw, body) =>
        match Header.decode raw with
        | .error error => .breaks peer error
        | .ok header =>
          match Bytes.split? header.size body with
          | none => .waits { peer with pending := some (.start header body) } []
          | some (payload, rest) => peer.lookInto header payload rest
  | some frame =>
    match Bytes.split? frame.missing bytes with
    | none => .waits { peer with pending := some (frame.extend bytes) } []
    | some (piece, rest) =>
      { peer with pending := none }.lookInto frame.header (frame.extend piece).payload rest

/-- What is done with what was found. -/
def settle (target : Option σ) : Look → Received σ
  | .waits next rest => ⟨.ok rest, next, target⟩
  | .breaks next error => ⟨.error (.codec error), next, target⟩
  | .decodes message next rest =>
    match next.answer target message with
    | (.error error, target) => ⟨.error error, next, target⟩
    | (.ok (), target) =>
      match next.deliver message with
      | (.error error, next) => ⟨.error error, next, target⟩
      | (.ok (), next) => next.receive target rest

/-- Queuing a message leaves the frame in progress alone. -/
theorem pending_deliver (peer : Peer) (message : Message) :
    (peer.deliver message).2.pending = peer.pending := by
  unfold deliver
  split
  next => rfl
  next => split <;> rfl

/-- Dispatching a frame and going on is settling what the frame holds. -/
theorem settle_lookInto {peer : Peer} (hidle : peer.pending = none) (target : Option σ)
    (header : Header) (payload rest : Bytes) :
    (match peer.dispatch target header payload with
      | (.error error, next, reached) => ⟨.error error, next, reached⟩
      | (.ok (), next, reached) => next.receiveFrames reached rest) =
      settle target (peer.lookInto header payload rest) := by
  unfold dispatch lookInto
  cases header.message peer.dialect peer.nextList payload with
  | error error => rfl
  | ok message =>
    dsimp only [settle]
    cases Peer.answer { peer with nextList := peer.nextList.next } target message with
    | mk result reached =>
      cases result with
      | error error => rfl
      | ok _ =>
        have hpending := pending_deliver { peer with nextList := peer.nextList.next } message
        cases hdeliver : Peer.deliver { peer with nextList := peer.nextList.next } message with
        | mk result next =>
          cases result with
          | error error => rfl
          | ok _ =>
            rw [hdeliver] at hpending
            dsimp only
            rw [receive, hpending.trans hidle]

/-- Being offered bytes is settling what is found in them. -/
theorem receive_eq (peer : Peer) (target : Option σ) (bytes : Bytes) :
    peer.receive target bytes = settle target (peer.look bytes) := by
  unfold receive look
  cases hpending : peer.pending with
  | none =>
    dsimp only
    rw [receiveFrames]
    cases peer.dialect.network.seekMagic bytes with
    | absent discard => rfl
    | found start =>
      dsimp only
      split
      next hraw =>
        rw [hraw]
        rfl
      next raw body hraw =>
        rw [hraw]
        dsimp only
        cases Header.decode raw with
        | error error => rfl
        | ok header =>
          dsimp only
          split
          next hpayload =>
            rw [hpayload]
            rfl
          next payload rest hpayload =>
            rw [hpayload]
            exact settle_lookInto hpending target header payload rest
  | some frame =>
    dsimp only
    cases Bytes.split? frame.missing bytes with
    | none => rfl
    | some parts => exact settle_lookInto rfl target frame.header _ parts.2

/-- The bytes that a peer has to do with, where a frame in progress counts as one more. -/
def work (peer : Peer) (bytes : Bytes) : Nat :=
  bytes.length + peer.pending.toList.length

/-- A message is found with its frame used up, and fewer bytes are left. -/
theorem look_eq_decodes {peer next : Peer} {bytes rest : Bytes} {message : Message}
    (h : peer.look bytes = .decodes message next rest) :
    next.pending = none ∧ next.work rest < peer.work bytes := by
  have hinto {idle : Peer} {header : Header} {payload tail : Bytes} (hidle : idle.pending = none)
      (h : idle.lookInto header payload tail = .decodes message next rest) :
      next.pending = none ∧ rest = tail := by
    unfold lookInto at h
    split at h
    next => cases h
    next =>
      obtain ⟨-, rfl, rfl⟩ := Look.decodes.inj h
      exact ⟨hidle, rfl⟩
  unfold look at h
  cases hpending : peer.pending with
  | none =>
    rw [hpending] at h
    dsimp only at h
    split at h
    next => cases h
    next start _ =>
      split at h
      next => cases h
      next raw body hraw =>
        split at h
        next => cases h
        next header _ =>
          split at h
          next => cases h
          next payload tail hpayload =>
            obtain ⟨hnext, rfl⟩ := hinto hpending h
            have hbody := length_of_split? hraw
            have hrest := length_of_split? hpayload
            simp only [List.length_drop, Header.length] at hbody
            simp only [work, hnext, hpending, Option.toList_none, List.length_nil]
            exact ⟨trivial, by omega⟩
  | some frame =>
    rw [hpending] at h
    dsimp only at h
    split at h
    next => cases h
    next piece tail hpiece =>
      obtain ⟨hnext, rfl⟩ := hinto rfl h
      have hrest := length_of_split? hpiece
      simp only [work, hnext, hpending, Option.toList_none, Option.toList_some, List.length_nil,
        List.length_singleton]
      exact ⟨trivial, by omega⟩

/-- What is shown of each way in which a step may come out is shown of whatever is offered. -/
theorem receive_induction {motive : Peer → Option σ → Bytes → Received σ → Prop}
    (waits : ∀ {peer next : Peer} {target : Option σ} {bytes rest : Bytes},
      peer.look bytes = .waits next rest → motive peer target bytes ⟨.ok rest, next, target⟩)
    (breaks : ∀ {peer next : Peer} {target : Option σ} {bytes : Bytes} {error : CodecError},
      peer.look bytes = .breaks next error →
      motive peer target bytes ⟨.error (.codec error), next, target⟩)
    (unanswered : ∀ {peer next : Peer} {target reached : Option σ} {bytes rest : Bytes}
      {message : Message} {error : LinkError},
      peer.look bytes = .decodes message next rest →
      next.answer target message = (.error error, reached) →
      motive peer target bytes ⟨.error error, next, reached⟩)
    (unqueued : ∀ {peer next last : Peer} {target reached : Option σ} {bytes rest : Bytes}
      {message : Message} {error : LinkError},
      peer.look bytes = .decodes message next rest →
      next.answer target message = (.ok (), reached) →
      next.deliver message = (.error error, last) →
      motive peer target bytes ⟨.error error, last, reached⟩)
    (queued : ∀ {peer next last : Peer} {target reached : Option σ} {bytes rest : Bytes}
      {message : Message},
      peer.look bytes = .decodes message next rest →
      next.answer target message = (.ok (), reached) →
      next.deliver message = (.ok (), last) →
      motive last reached rest (last.receive reached rest) →
      motive peer target bytes (last.receive reached rest))
    (peer : Peer) (target : Option σ) (bytes : Bytes) :
    motive peer target bytes (peer.receive target bytes) := by
  induction hwork : peer.work bytes using Nat.strongRecOn generalizing peer target bytes with
  | _ todo ih =>
  rw [receive_eq]
  cases hlook : peer.look bytes with
  | waits next rest => exact waits hlook
  | breaks next error => exact breaks hlook
  | decodes message next rest =>
    obtain ⟨hidle, hless⟩ := look_eq_decodes hlook
    cases hanswer : next.answer target message with
    | mk result reached =>
    cases result with
    | error error =>
      simp only [settle, hanswer]
      exact unanswered hlook hanswer
    | ok _ =>
      have hpending := pending_deliver next message
      cases hdeliver : next.deliver message with
      | mk result last =>
      rw [hdeliver] at hpending
      simp only [settle, hanswer, hdeliver]
      cases result with
      | error error => exact unqueued hlook hanswer hdeliver
      | ok _ =>
        have hsame : last.work rest = next.work rest := by rw [work, work, hpending]
        exact queued hlook hanswer hdeliver (ih _ (by omega) last reached rest rfl)

end Peer

end PeerProtocol
