import Mathlib.Data.List.Forall2
import PeerProtocol.Proofs.Connection.Outbox
import PeerProtocol.Proofs.Peer.Pings
import PeerProtocol.Proofs.Peer.Reception

/-!
# Pongs and the queue

What a peer has decoded, written and queued stand in one relation at every moment of a reception,
however the stream is cut, whenever the application takes messages and whatever others do to the
write target. The messages that were taken, the queue and the message in hand are the front of what
the stream decodes as; the frames that were written are the pongs of the taken and queued messages,
and of the one in hand once it is answered; a refused pong or a full queue ends the reception with
the message in hand. Each kind of step keeps this (`Sound`), so every run does. The main statement
is `prompt_run`.
-/

namespace PeerProtocol

open PeerProtocol.Frame (transcript)

namespace Reception

variable {σ : Type}

/-- The frames that answer messages. -/
def pongs (dialect : Dialect) (messages : List Message) : List Bytes :=
  (messages.filterMap Message.asked?).map (Peer.pongFrame dialect)

/-- Answers to more messages are more answers. -/
theorem pongs_append (dialect : Dialect) (first second : List Message) :
    pongs dialect (first ++ second) = pongs dialect first ++ pongs dialect second := by
  rw [pongs, List.filterMap_append, List.map_append]
  rfl

/-- A message that asks for nothing has no answer. -/
theorem pongs_of_unasked {message : Message} (h : message.asked? = none) (dialect : Dialect) :
    pongs dialect [message] = [] := by
  simp [pongs, h]

/-- A message that asks for a nonce has one answer. -/
theorem pongs_of_asked {message : Message} {nonce : UInt64} (h : message.asked? = some nonce)
    (dialect : Dialect) : pongs dialect [message] = [Peer.pongFrame dialect nonce] := by
  simp [pongs, h]

/-- The frame is decoded as a pong with the nonce. -/
def IsPong (dialect : Dialect) (nonce : UInt64) (frame : Bytes) : Prop :=
  ∀ id, ∃ encoding,
    Frame.decode dialect id frame = .ok (some (.pong encoding nonce, frame.length))

/-- The frame that answers a nonce is decoded as a pong with it. -/
theorem isPong_pongFrame (dialect : Dialect) (nonce : UInt64) :
    IsPong dialect nonce (Peer.pongFrame dialect nonce) := by
  intro id
  have hnoise : ¬ dialect.network.magic <:+: [] := by
    cases dialect.network <;> decide
  have hdecode := Frame.decode_ofPayload rfl (Peer.ofPayload_pong dialect nonce) hnoise [] id
  have hparse : Message.parse dialect id "pong" (Bytes.littleEndian 8 nonce.toNat) =
      .ok (.pong (.parsed dialect (Bytes.littleEndian 8 nonce.toNat) 0 8) nonce) := by
    unfold Message.parse
    rw [show Command.ofName "pong" = .pong from rfl]
    simp only [Message.parseNonce_littleEndian, bind, Except.bind, pure, Except.pure]
  rw [hparse, List.nil_append, List.append_nil, List.length_nil, Nat.zero_add] at hdecode
  exact ⟨_, hdecode⟩

/-- Pongs are decoded as pongs, in their order. -/
theorem forall₂_pongs (dialect : Dialect) (messages : List Message) :
    List.Forall₂ (IsPong dialect) (messages.filterMap Message.asked?) (pongs dialect messages) := by
  rw [pongs, List.forall₂_map_right_iff, List.forall₂_same]
  exact fun nonce _ => isPong_pongFrame dialect nonce

/-- How a phase stands to the stream: what it decodes as, with all that may follow, is what was
decoded, followed by the outlook of the peer on the bytes that it has not looked at; or the
reception has ended there. -/
def Phase.Follows (dialect : Dialect) (firstList : ListId) (peer : Peer) (arrived : Bytes)
    (decoded : List Message) : Phase → Prop
  | waiting rest => peer.outlook rest = .empty ∧ ∀ more,
      transcript dialect firstList (arrived ++ more) = (peer.outlook (rest ++ more)).after decoded
  | looking rest | answering _ rest | queuing _ rest => ∀ more,
      transcript dialect firstList (arrived ++ more) = (peer.outlook (rest ++ more)).after decoded
  | broken error => ∀ more,
      transcript dialect firstList (arrived ++ more) = ⟨decoded, some error⟩
  | unanswered _ _ | unqueued _ _ => ∀ more,
      decoded <+: (transcript dialect firstList (arrived ++ more)).messages

/-- What refuses the message in hand, if anything does: the target its pong, or a full queue. -/
def Phase.Refused (dialect : Dialect) (refused : List (Bytes × LinkError)) : Phase → Prop
  | unanswered message error => ∃ nonce, message.asked? = some nonce ∧
      refused = [(Peer.pongFrame dialect nonce, error)]
  | unqueued _ error => error = .rejected .inboxFull ∧ refused = []
  | _ => refused = []

/-- What every step of a reception keeps. -/
structure Sound (dialect : Dialect) (firstList : ListId) (reception : Reception σ) : Prop where
  dialect_eq : reception.peer.dialect = dialect
  listening : reception.peer.listening = true
  room : reception.peer.inbox.length ≤ Peer.inboxCapacity
  accepted : reception.target.accepted =
    pongs dialect (reception.queued ++ reception.phase.answered)
  refused : reception.phase.Refused dialect reception.target.refused
  follows : reception.phase.Follows dialect firstList reception.peer reception.arrived
    reception.decoded

variable {dialect : Dialect} {firstList : ListId} {reception : Reception σ}

/-- What was decoded is the front of what the stream decodes as, in every phase. -/
theorem Phase.Follows.decoded_prefix {peer : Peer} {arrived : Bytes} {decoded : List Message}
    {phase : Phase} (h : phase.Follows dialect firstList peer arrived decoded) :
    decoded <+: (transcript dialect firstList arrived).messages := by
  rw [← List.append_nil arrived]
  cases phase with
  | waiting rest => exact h.2 [] ▸ List.prefix_append _ _
  | looking rest => exact h [] ▸ List.prefix_append _ _
  | answering message rest => exact h [] ▸ List.prefix_append _ _
  | queuing message rest => exact h [] ▸ List.prefix_append _ _
  | broken error => exact h [] ▸ List.prefix_refl _
  | unanswered message error => exact h []
  | unqueued message error => exact h []

/-- What a message in hand comes to in a sound reception depends on the room in the queue alone. -/
theorem Sound.deliver_eq (h : Sound dialect firstList reception) (message : Message) :
    reception.peer.deliver message =
      if Peer.inboxCapacity ≤ reception.peer.inbox.length then
        (.error (.rejected .inboxFull), reception.peer)
      else (.ok (), { reception.peer with inbox := reception.peer.inbox ++ [message] }) := by
  simp only [Peer.deliver, h.listening, Bool.not_true, Bool.false_eq_true, if_false]

/-- A reception begins soundly. -/
theorem sound_start (dialect : Dialect) (firstList : ListId) (target : σ) :
    Sound dialect firstList (start dialect firstList target) where
  dialect_eq := rfl
  listening := rfl
  room := Nat.zero_le _
  accepted := rfl
  refused := rfl
  follows := ⟨Frame.transcript_of_none rfl, fun _ => rfl⟩

/-- A chunk is added to what has arrived and to what is looked at. -/
theorem Sound.offer (h : Sound dialect firstList reception) (bytes : Bytes) :
    Sound dialect firstList (reception.offer bytes) := by
  unfold Reception.offer
  split
  next leftover hphase =>
    obtain ⟨hdialect, hlistening, hroom, haccepted, hrefused, hfollows⟩ := h
    rw [hphase] at haccepted hrefused
    rw [decoded, hphase] at hfollows
    refine ⟨hdialect, hlistening, hroom, haccepted, hrefused, fun more => ?_⟩
    have hnext := hfollows.2 (bytes ++ more)
    rw [← List.append_assoc reception.arrived, ← List.append_assoc leftover] at hnext
    exact hnext
  next => exact h

/-- Taking a message moves it from the queue to the application. -/
theorem Sound.take (h : Sound dialect firstList reception) :
    Sound dialect firstList reception.take := by
  unfold Reception.take Peer.take?
  cases hinbox : reception.peer.inbox with
  | nil => exact h
  | cons message others =>
    have hqueued : reception.queued = reception.taken ++ [message] ++ others := by
      rw [queued, hinbox, List.append_assoc, List.singleton_append]
    obtain ⟨hdialect, hlistening, hroom, haccepted, hrefused, hfollows⟩ := h
    rw [decoded, hqueued] at hfollows
    rw [hqueued] at haccepted
    rw [hinbox, List.length_cons] at hroom
    refine ⟨hdialect, hlistening, Nat.le_of_succ_le hroom, haccepted, hrefused, ?_⟩
    -- The outlook of a peer does not depend on its queue.
    cases hphase : reception.phase <;> rw [hphase] at hfollows <;> exact hfollows

/-- What others do to the target changes neither what it was written by the peer nor the peer. -/
theorem Sound.meanwhile (h : Sound dialect firstList reception) (inner : σ) :
    Sound dialect firstList { reception with target := { reception.target with inner := inner } } :=
  ⟨h.dialect_eq, h.listening, h.room, h.accepted, h.refused, h.follows⟩

/-- Whatever is found, what was queued stays what it is. -/
theorem Sound.found (h : Sound dialect firstList reception) {bytes : Bytes}
    (hphase : reception.phase = .looking bytes) {next : Peer} {phase : Phase}
    (hqueued : Peer.Queued reception.peer [] next) (hanswered : phase.answered = [])
    (hrefused : phase.Refused dialect reception.target.refused)
    (hfollows : phase.Follows dialect firstList next reception.arrived
      (reception.queued ++ phase.inHand)) :
    Sound dialect firstList { reception with peer := next, phase := phase } := by
  have hinbox : next.inbox = reception.peer.inbox := hqueued.inbox.trans (List.append_nil _)
  have hsame : queued { reception with peer := next, phase := phase } = reception.queued := by
    rw [queued, queued, hinbox]
  have haccepted := h.accepted
  rw [hphase] at haccepted
  refine ⟨hqueued.dialect.trans h.dialect_eq, hqueued.listening.trans h.listening, ?_, ?_, hrefused,
    ?_⟩
  · rw [hinbox]
    exact h.room
  · rw [hsame, hanswered]
    exact haccepted
  · rw [decoded, hsame]
    exact hfollows

variable [WriteTarget σ]

/-- Looking for a frame shortens the outlook by what is found. -/
theorem Sound.look (h : Sound dialect firstList reception) {bytes : Bytes}
    (hphase : reception.phase = .looking bytes) : Sound dialect firstList reception.work := by
  have hrefused : reception.target.refused = [] := by
    have hnothing := h.refused
    rwa [hphase] at hnothing
  have hfollows : ∀ more, transcript dialect firstList (reception.arrived ++ more) =
      (reception.peer.outlook (bytes ++ more)).after reception.queued := by
    have houtlook := h.follows
    rwa [decoded, hphase, Phase.inHand, List.append_nil] at houtlook
  have hfinds := Peer.finds_look reception.peer bytes
  simp only [work, hphase]
  cases hlook : reception.peer.look bytes with
  | waits next rest =>
    rw [hlook] at hfinds
    cases hfinds with
    | waits hqueued hrest hshort hdone houtlook =>
      refine h.found hphase hqueued rfl hrefused ⟨hdone, fun more => ?_⟩
      rw [hfollows, houtlook, Phase.inHand, List.append_nil]
  | breaks next error =>
    rw [hlook] at hfinds
    cases hfinds with
    | breaks hqueued houtlook =>
      refine h.found hphase hqueued rfl hrefused fun more => ?_
      rw [hfollows, houtlook, Phase.inHand, List.append_nil, Frame.Transcript.after,
        List.append_nil]
  | decodes message next rest =>
    rw [hlook] at hfinds
    cases hfinds with
    | decodes hqueued hrest houtlook =>
      refine h.found hphase hqueued rfl hrefused fun more => ?_
      rw [hfollows, houtlook, Frame.Transcript.after_after, Phase.inHand]

/-- Answering a message writes its pong, which the target takes or refuses. -/
theorem Sound.answer (h : Sound dialect firstList reception) {message : Message} {rest : Bytes}
    (hphase : reception.phase = .answering message rest) :
    Sound dialect firstList reception.work := by
  obtain ⟨hdialect, hlistening, hroom, haccepted, hrefused, hfollows⟩ := h
  rw [hphase, Phase.answered, List.append_nil] at haccepted
  rw [hphase] at hrefused
  rw [decoded, hphase] at hfollows
  have hwritten : pongs dialect (reception.queued ++ [message]) =
      reception.target.accepted ++ pongs dialect [message] := by
    rw [pongs_append, haccepted]
  cases hasked : message.asked? with
  | none =>
    rw [work_of_unasked hphase hasked]
    refine ⟨hdialect, hlistening, hroom, ?_, hrefused, hfollows⟩
    show reception.target.accepted = pongs dialect (reception.queued ++ [message])
    rw [hwritten, pongs_of_unasked hasked, List.append_nil]
  | some nonce =>
    cases hwrite : WriteTarget.write reception.target.inner
      (Peer.pongFrame reception.peer.dialect nonce) with
    | mk result next =>
    cases result with
    | ok ticket =>
      rw [work_of_accepted hphase hasked hwrite]
      refine ⟨hdialect, hlistening, hroom, ?_, hrefused, hfollows⟩
      show reception.target.accepted ++ [Peer.pongFrame reception.peer.dialect nonce] =
        pongs dialect (reception.queued ++ [message])
      rw [hwritten, pongs_of_asked hasked, hdialect]
    | error error =>
      rw [work_of_refused hphase hasked hwrite]
      refine ⟨hdialect, hlistening, hroom, ?_, ⟨nonce, hasked, ?_⟩, fun more => ?_⟩
      · show reception.target.accepted = pongs dialect (reception.queued ++ [])
        rw [List.append_nil, haccepted]
      · show reception.target.refused ++ [(Peer.pongFrame reception.peer.dialect nonce, error)] = _
        rw [show reception.target.refused = [] from hrefused, hdialect, List.nil_append]
      · rw [hfollows more]
        exact List.prefix_append _ _

/-- Queuing a message moves it from the hand into the queue, unless the queue is full. -/
theorem Sound.queue (h : Sound dialect firstList reception) {message : Message} {rest : Bytes}
    (hphase : reception.phase = .queuing message rest) :
    Sound dialect firstList reception.work := by
  obtain ⟨hdialect, hlistening, hroom, haccepted, hrefused, hfollows⟩ := h
  rw [hphase] at haccepted hrefused
  rw [decoded, hphase] at hfollows
  cases hdeliver : reception.peer.deliver message with
  | mk result next =>
  cases result with
  | ok _ =>
    obtain ⟨rfl, -, hless⟩ := Peer.deliver_eq_ok hdeliver
    rw [work_of_queued hphase hdeliver]
    have hqueued : reception.taken ++ (reception.peer.inbox ++ [message]) ++ [] =
        reception.queued ++ [message] := by
      rw [queued, List.append_nil, List.append_assoc]
    refine ⟨hdialect, hlistening, ?_, ?_, hrefused, fun more => ?_⟩
    · show (reception.peer.inbox ++ [message]).length ≤ Peer.inboxCapacity
      rw [List.length_append]
      exact hless
    · exact haccepted.trans (congrArg _ hqueued.symm)
    · exact (hfollows more).trans (congrArg (Frame.Transcript.after · _) hqueued.symm)
  | error error =>
    obtain ⟨rfl, hcause⟩ := Peer.deliver_eq_error hdeliver
    rw [work_of_unqueued hphase hdeliver]
    rcases hcause with ⟨hdeaf, -⟩ | ⟨-, rfl⟩
    · rw [hlistening] at hdeaf
      cases hdeaf
    · refine ⟨hdialect, hlistening, hroom, haccepted, ⟨rfl, hrefused⟩, fun more => ?_⟩
      rw [hfollows more]
      exact List.prefix_append _ _

/-- One event keeps a reception sound. -/
theorem Sound.step (h : Sound dialect firstList reception) (event : Event σ) :
    Sound dialect firstList (reception.step event) := by
  cases event with
  | chunk bytes => exact h.offer bytes
  | take => exact h.take
  | meanwhile inner => exact h.meanwhile inner
  | work =>
    show Sound dialect firstList reception.work
    cases hphase : reception.phase with
    | looking bytes => exact h.look hphase
    | answering message rest => exact h.answer hphase
    | queuing message rest => exact h.queue hphase
    | waiting | broken | unanswered | unqueued =>
      have hidle : reception.work = reception := work_of_result (by rw [hphase]; rfl)
      rwa [hidle]

/-- Every moment of a reception is sound. -/
theorem sound_run (h : Sound dialect firstList reception) (events : List (Event σ)) :
    Sound dialect firstList (reception.run events) := by
  induction events generalizing reception with
  | nil => exact h
  | cons event events ih => exact ih (h.step event)

/-- What a peer has decoded, written and queued at a moment of a reception, and what its next step
does with a message in hand. -/
structure Prompt (dialect : Dialect) (firstList : ListId) (reception : Reception σ) : Prop where
  /-- What was taken, what is queued and what is in hand are the front of what the stream so far
  decodes as. -/
  decoded : reception.decoded <+:
    (Frame.decodeAll dialect firstList reception.arrived).1.map Prod.fst
  /-- A peer that waits has queued all that the stream so far decodes as. -/
  waiting : ∀ leftover, reception.phase = .waiting leftover →
    (Frame.decodeAll dialect firstList reception.arrived).1.map Prod.fst = reception.queued ∧
      (Frame.decodeAll dialect firstList reception.arrived).2 = none
  /-- A broken frame ends the reception with the error of decoding, when all messages before it are
  queued. -/
  broken : ∀ error, reception.phase = .broken error →
    (Frame.decodeAll dialect firstList reception.arrived).1.map Prod.fst = reception.queued ∧
      (Frame.decodeAll dialect firstList reception.arrived).2 = some error
  /-- The queue is never longer than its capacity. -/
  room : reception.peer.inbox.length ≤ Peer.inboxCapacity
  /-- The frames that were written are pongs, one for each nonce that the queued messages and the
  message in hand, once it is answered, ask for, in their order. -/
  written : List.Forall₂ (IsPong dialect)
    ((reception.queued ++ reception.phase.answered).filterMap Message.asked?)
    reception.target.accepted
  /-- Before a message is queued that asks for a nonce, its pong is the latest frame. -/
  latest : ∀ message rest nonce, reception.phase = .queuing message rest →
    message.asked? = some nonce → ∃ earlier frame,
      reception.target.accepted = earlier ++ [frame] ∧ IsPong dialect nonce frame
  /-- Nothing is written for a message that asks for nothing. -/
  unasked : ∀ message rest, reception.phase = .answering message rest → message.asked? = none →
    reception.work = { reception with phase := .queuing message rest }
  /-- A pong that the target refuses ends the reception with its error; its message stays in hand
  and the queue as it is. -/
  refuses : ∀ message rest nonce error next, reception.phase = .answering message rest →
    message.asked? = some nonce →
    WriteTarget.write reception.target.inner (Peer.pongFrame dialect nonce) =
      (.error error, next) →
    reception.work =
      { reception with
        target := reception.target.refuse next (Peer.pongFrame dialect nonce) error
        phase := .unanswered message error }
  /-- The target refuses nothing else, and at most once. -/
  refused : reception.phase.Refused dialect reception.target.refused
  /-- While there is room, the message in hand is queued behind the others. -/
  queues : ∀ message rest, reception.phase = .queuing message rest →
    reception.peer.inbox.length < Peer.inboxCapacity →
    reception.work =
      { reception with
        peer := { reception.peer with inbox := reception.peer.inbox ++ [message] }
        phase := .looking rest }
  /-- A message that finds the queue full is rejected; it stays in hand and the queue as it is. -/
  full : ∀ message rest, reception.phase = .queuing message rest →
    Peer.inboxCapacity ≤ reception.peer.inbox.length →
    reception.work = { reception with phase := .unqueued message (.rejected .inboxFull) }
  /-- Left alone, the steps come to what offering the bytes comes to for the peer and the target:
  the same peer, the same target, and the same error or leftover. -/
  offered : ∀ bytes, reception.phase = .looking bytes → ∃ count,
    let after := work^[count] reception
    Ends after (reception.peer.receive (some reception.target.inner) bytes) ∧
      after.taken = reception.taken ∧ after.arrived = reception.arrived

/-- At every moment of every reception, every ping that carries a nonce and is queued was answered
before, nothing else was written, and the queue is what the stream decodes as, from the first
message that was not taken on. -/
theorem prompt_run (dialect : Dialect) (firstList : ListId) (target : σ)
    (events : List (Event σ)) :
    Prompt dialect firstList (run (start dialect firstList target) events) := by
  have h := sound_run (sound_start dialect firstList target) events
  generalize run (start dialect firstList target) events = reception at h
  have hfollows := h.follows
  refine
    { decoded := hfollows.decoded_prefix
      waiting := fun leftover hphase => ?waiting
      broken := fun error hphase => ?broken
      room := h.room
      written := h.accepted ▸ forall₂_pongs dialect _
      latest := fun message rest nonce hphase hasked => ?latest
      unasked := fun message rest hphase hasked => work_of_unasked hphase hasked
      refuses := fun message rest nonce error next hphase hasked hwrite => ?refuses
      refused := h.refused
      queues := fun message rest hphase hroom => ?queues
      full := fun message rest hphase hfull => ?full
      offered := fun bytes hphase => ends_receive hphase }
  case waiting =>
    rw [decoded, hphase, Phase.inHand, List.append_nil] at hfollows
    obtain ⟨hdone, houtlook⟩ := hfollows
    have hnow := houtlook []
    rw [List.append_nil, List.append_nil, hdone] at hnow
    refine ⟨(congrArg Frame.Transcript.messages hnow).trans (List.append_nil _), ?_⟩
    exact congrArg Frame.Transcript.error hnow
  case broken =>
    rw [decoded, hphase, Phase.inHand, List.append_nil] at hfollows
    have hnow := hfollows []
    rw [List.append_nil] at hnow
    exact ⟨congrArg Frame.Transcript.messages hnow, congrArg Frame.Transcript.error hnow⟩
  case latest =>
    have haccepted := h.accepted
    rw [hphase, Phase.answered, pongs_append, pongs_of_asked hasked] at haccepted
    exact ⟨_, _, haccepted, isPong_pongFrame dialect nonce⟩
  case refuses =>
    rw [← h.dialect_eq] at hwrite ⊢
    exact work_of_refused hphase hasked hwrite
  case queues =>
    exact work_of_queued hphase ((h.deliver_eq message).trans (if_neg (Nat.not_le.2 hroom)))
  case full =>
    exact work_of_unqueued hphase ((h.deliver_eq message).trans (if_pos hfull))

/-- Two pings for a target that takes one pong: the first is answered, queued and taken before the
second is found, whose pong is refused. -/
theorem run_twoPings {target middle last : σ} {first second : UInt64} {ticket : Nat}
    {error : LinkError}
    (htakes : WriteTarget.write target (Peer.pongFrame dialect first) = (.ok ticket, middle))
    (hrefuses : WriteTarget.write middle (Peer.pongFrame dialect second) = (.error error, last))
    (id : ListId) :
    let chunk := Peer.pingFrame dialect first ++ Peer.pingFrame dialect second
    run (start dialect id target) [.chunk chunk, .work, .work, .work, .take, .work, .work] =
      ⟨Peer.new dialect id.next.next,
        ⟨last, [Peer.pongFrame dialect first], [(Peer.pongFrame dialect second, error)]⟩,
        .unanswered (Peer.decodedPing dialect second) error, [Peer.decodedPing dialect first],
        chunk⟩ := by
  intro chunk
  have hlook := Peer.look_pingFrame (show (Peer.new dialect id.next).pending = none from rfl)
    second []
  rw [List.append_nil] at hlook
  have hfirst : work ⟨Peer.new dialect id, ⟨target, [], []⟩, .looking chunk, [], chunk⟩ =
      ⟨Peer.new dialect id.next, ⟨target, [], []⟩,
        .answering (Peer.decodedPing dialect first) (Peer.pingFrame dialect second), [], chunk⟩ :=
    work_of_decodes rfl (Peer.look_pingFrame rfl first _)
  have hanswered : work ⟨Peer.new dialect id.next, ⟨target, [], []⟩,
      .answering (Peer.decodedPing dialect first) (Peer.pingFrame dialect second), [], chunk⟩ =
      ⟨Peer.new dialect id.next, ⟨middle, [Peer.pongFrame dialect first], []⟩,
        .queuing (Peer.decodedPing dialect first) (Peer.pingFrame dialect second), [], chunk⟩ :=
    work_of_accepted rfl rfl htakes
  have hsecond : work ⟨Peer.new dialect id.next, ⟨middle, [Peer.pongFrame dialect first], []⟩,
      .looking (Peer.pingFrame dialect second), [Peer.decodedPing dialect first], chunk⟩ =
      ⟨Peer.new dialect id.next.next, ⟨middle, [Peer.pongFrame dialect first], []⟩,
        .answering (Peer.decodedPing dialect second) [], [Peer.decodedPing dialect first],
        chunk⟩ :=
    work_of_decodes rfl hlook
  show work (work (take (work (work (work ⟨Peer.new dialect id, ⟨target, [], []⟩,
    .looking chunk, [], chunk⟩))))) = _
  rw [hfirst, hanswered]
  -- The first ping is queued and taken at once.
  show work (work ⟨Peer.new dialect id.next, ⟨middle, [Peer.pongFrame dialect first], []⟩,
    .looking (Peer.pingFrame dialect second), [Peer.decodedPing dialect first], chunk⟩) = _
  rw [hsecond]
  exact work_of_refused rfl rfl hrefuses

/-- An outbox with room for one pong refuses the second, whose ping is not queued. -/
theorem prompt_run_refusedPong :
    let dialect : Dialect := ⟨.main, Dialect.currentVersion, false⟩
    let reception := run (start dialect ⟨0⟩ (Outbox.new 10))
      [.chunk (Peer.pingFrame dialect 7 ++ Peer.pingFrame dialect 8), .work, .work, .work, .take,
        .work, .work]
    Prompt dialect ⟨0⟩ reception ∧
      reception.target.accepted = [Peer.pongFrame dialect 7] ∧
      reception.queued = [Peer.decodedPing dialect 7] ∧
      reception.phase =
        .unanswered (Peer.decodedPing dialect 8) (.outboundOverflow 32 32 34) := by
  intro dialect
  obtain ⟨middle, last, htakes, hrefuses⟩ : ∃ middle last : Outbox,
      WriteTarget.write (Outbox.new 10) (Peer.pongFrame dialect 7) = (.ok 0, middle) ∧
      WriteTarget.write middle (Peer.pongFrame dialect 8) =
        (.error (.outboundOverflow 32 32 34), last) := by
    have hlength (nonce : UInt64) := Peer.length_pongFrame dialect nonce
    have htakes := Outbox.write_of_fits (show (Outbox.new 10).isClosing = false from rfl)
      (show (Outbox.new 10).remaining + (Peer.pongFrame dialect 7).length ≤ 34 by
        rw [hlength]; decide)
    have hrefuses := Outbox.write_of_overflow (show Outbox.isClosing { Outbox.new 10 with
      queue := [⟨0, Peer.pongFrame dialect 7⟩], remaining := 32, accepted := 1 } = false from rfl)
      (show 34 < 32 + (Peer.pongFrame dialect 8).length by rw [hlength]; decide)
    rw [hlength] at htakes hrefuses
    exact ⟨_, _, htakes, hrefuses⟩
  refine ⟨prompt_run dialect ⟨0⟩ (Outbox.new 10) _, ?_⟩
  rw [run_twoPings htakes hrefuses]
  exact ⟨rfl, rfl, rfl⟩

end Reception

end PeerProtocol
