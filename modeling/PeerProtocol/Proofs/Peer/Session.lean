import Mathlib.Data.List.Induction
import PeerProtocol.Proofs.Connection.Outbox
import PeerProtocol.Proofs.Peer.Pings

/-!
# Sessions of a peer

A session is a peer between the engine, which feeds it chunks of a stream, and the application,
which takes decoded messages. The engine offers what was left over and the new chunk, and keeps
what is not consumed. The main statement, `queued_eq_decoded`, says that however the stream is cut
and whenever messages are taken, the messages that were queued are those of decoding the stream as
one buffer, and the session fails at the first chunk with which that decoding ends in an error,
with this error.
-/

namespace PeerProtocol

open PeerProtocol.Frame (Transcript transcript)

/-- A peer that is being fed: its write target, the bytes that it left unconsumed, the messages
that the application has taken, and the error that ended the feeding. -/
structure Session (σ : Type) where
  peer : Peer
  target : Option σ
  leftover : Bytes
  taken : List Message
  failed : Option LinkError

namespace Session

/-- What happens in a session. -/
inductive Event where
  /-- A chunk of the stream arrives. -/
  | chunk (bytes : Bytes)
  /-- The application asks for the oldest message. -/
  | take

/-- The bytes that arrive with an event. -/
def Event.bytes : Event → Bytes
  | chunk bytes => bytes
  | take => []

/-- The bytes that arrive with events. -/
def stream (events : List Event) : Bytes :=
  events.flatMap Event.bytes

/-- The bytes of events are those of the first ones and then those of the others. -/
theorem stream_append (first second : List Event) :
    stream (first ++ second) = stream first ++ stream second :=
  List.flatMap_append

variable {σ : Type} [WriteTarget σ]

/-- A session in which nothing has happened. -/
def start (peer : Peer) (target : Option σ) : Session σ :=
  ⟨peer, target, [], [], none⟩

/-- The messages that were queued for the application, those included that it has taken. -/
def queued (session : Session σ) : List Message :=
  session.taken ++ session.peer.inbox

/-- Offers the leftover and a chunk. Nothing is offered any more after an error. -/
def feed (session : Session σ) (bytes : Bytes) : Session σ :=
  match session.failed with
  | some _ => session
  | none =>
    let offered := session.leftover ++ bytes
    let received := session.peer.receive session.target offered
    let session := { session with peer := received.peer, target := received.target }
    match received.consumed offered with
    | .ok consumed => { session with leftover := offered.drop consumed }
    | .error error => { session with leftover := [], failed := some error }

/-- Hands the oldest message to the application, if one is waiting. -/
def take (session : Session σ) : Session σ :=
  match session.peer.take? with
  | none => session
  | some (message, peer) => { session with peer := peer, taken := session.taken ++ [message] }

/-- The session after an event. -/
def step (session : Session σ) : Event → Session σ
  | .chunk bytes => session.feed bytes
  | .take => session.take

/-- The session after events in order. -/
def run (session : Session σ) (events : List Event) : Session σ :=
  events.foldl step session

/-- The last event is the last step. -/
theorem run_append_singleton (session : Session σ) (events : List Event) (event : Event) :
    session.run (events ++ [event]) = (session.run events).step event := by
  simp [run]

/-- Feeding takes no message out of the queue. -/
theorem taken_feed (session : Session σ) (bytes : Bytes) :
    (session.feed bytes).taken = session.taken := by
  unfold feed
  split
  next => rfl
  next =>
    dsimp only
    split <;> rfl

/-- Nothing outside the stream stands in the way of a session: at every moment the messages that
were decoded and not yet taken fit the queue, and the target takes a pong for every message. -/
structure Unhindered (dialect : Dialect) (firstList : ListId) (target : Option σ)
    (events : List Event) : Prop where
  room : ∀ earlier, earlier <+: events →
    (Frame.decodeAll dialect firstList (stream earlier)).1.length ≤
      Peer.inboxCapacity + (run (start (Peer.new dialect firstList) target) earlier).taken.length
  pongs : Peer.TakesPongs dialect (Frame.decodeAll dialect firstList (stream events)).1.length
    target

/-- How a session stands to the part of a stream that was fed: the transcript of that part and of
all that may follow is what was queued, followed by the outlook of the peer on its leftover and
what follows; or it has ended in the error of the session. -/
structure Follows (dialect : Dialect) (firstList : ListId) (target : Option σ) (read : Bytes)
    (session : Session σ) : Prop where
  dialect_eq : session.peer.dialect = dialect
  listening : session.peer.listening = true
  pongs : session.failed = none → ∀ count,
    Peer.TakesPongs dialect (session.queued.length + count) target →
      Peer.TakesPongs dialect count session.target
  live : session.failed = none →
    session.peer.outlook session.leftover = .empty ∧ ∀ more,
      transcript dialect firstList (read ++ more) =
        (session.peer.outlook (session.leftover ++ more)).after session.queued
  dead : ∀ error, session.failed = some error → ∃ cause, error = .codec cause ∧ ∀ more,
    transcript dialect firstList (read ++ more) = ⟨session.queued, some cause⟩

variable {dialect : Dialect} {firstList : ListId} {target : Option σ} {read : Bytes}
  {session : Session σ}

/-- Before anything was fed, all is outlook. -/
theorem follows_start (dialect : Dialect) (firstList : ListId) (target : Option σ) :
    Follows dialect firstList target [] (start (Peer.new dialect firstList) target) where
  dialect_eq := rfl
  listening := rfl
  pongs _ count htakes := by simpa [queued, start, Peer.new] using htakes
  live _ := by
    refine ⟨?_, fun more => rfl⟩
    show transcript dialect firstList [] = .empty
    exact Frame.transcript_of_none rfl
  dead error hfailed := by simp [start] at hfailed

/-- What was fed so far has the transcript that the session shows. -/
theorem Follows.transcript_eq (h : Follows dialect firstList target read session) :
    (transcript dialect firstList read).messages = session.queued ∧
      session.failed = (transcript dialect firstList read).error.map .codec := by
  cases hfailed : session.failed with
  | none =>
    obtain ⟨hdone, houtlook⟩ := h.live hfailed
    have hread := houtlook []
    rw [List.append_nil, List.append_nil, hdone] at hread
    rw [hread]
    exact ⟨List.append_nil _, rfl⟩
  | some error =>
    obtain ⟨cause, rfl, hdead⟩ := h.dead error hfailed
    have hread := hdead []
    rw [List.append_nil] at hread
    rw [hread]
    exact ⟨rfl, rfl⟩

/-- Taking a message moves it from the queue to the application. -/
theorem Follows.take (h : Follows dialect firstList target read session) :
    Follows dialect firstList target read session.take := by
  unfold Session.take Peer.take?
  cases hinbox : session.peer.inbox with
  | nil => exact h
  | cons message rest =>
    have hqueued : session.queued = session.taken ++ [message] ++ rest := by
      rw [queued, hinbox, List.append_assoc, List.singleton_append]
    obtain ⟨hdialect, hlistening, hpongs, hlive, hdead⟩ := h
    rw [hqueued] at hpongs hlive hdead
    exact ⟨hdialect, hlistening, hpongs, hlive, hdead⟩

/-- Nothing is offered after an error. -/
theorem feed_of_failed {error : LinkError} (hfailed : session.failed = some error)
    (bytes : Bytes) : session.feed bytes = session := by
  simp only [feed, hfailed]

/-- What a peer leaves is what the engine keeps. -/
theorem feed_of_ok {bytes rest : Bytes} {next : Peer} {reached : Option σ}
    (hfailed : session.failed = none)
    (hreceived : session.peer.receive session.target (session.leftover ++ bytes) =
      ⟨.ok rest, next, reached⟩)
    (hrest : rest <:+ session.leftover ++ bytes) :
    session.feed bytes = ⟨next, reached, rest, session.taken, none⟩ := by
  simp only [feed, hfailed, hreceived, Peer.Received.consumed, Except.map,
    ← List.suffix_iff_eq_drop.1 hrest]

/-- An error ends the feeding. -/
theorem feed_of_error {bytes : Bytes} {error : LinkError} {next : Peer} {reached : Option σ}
    (hfailed : session.failed = none)
    (hreceived : session.peer.receive session.target (session.leftover ++ bytes) =
      ⟨.error error, next, reached⟩) :
    session.feed bytes = ⟨next, reached, [], session.taken, some error⟩ := by
  simp only [feed, hfailed, hreceived, Peer.Received.consumed, Except.map]

/-- Feeding a chunk follows the stream, if the queue has room for what the stream decodes as and
the target takes its pongs. -/
theorem Follows.feed (h : Follows dialect firstList target read session) (bytes : Bytes)
    (hroom : (transcript dialect firstList (read ++ bytes)).messages.length ≤
      Peer.inboxCapacity + session.taken.length)
    (htakes : Peer.TakesPongs dialect
      (transcript dialect firstList (read ++ bytes)).messages.length target) :
    Follows dialect firstList target (read ++ bytes) (session.feed bytes) := by
  cases hfailed : session.failed with
  | some error =>
    obtain ⟨cause, hcause, hdead⟩ := h.dead error hfailed
    rw [feed_of_failed hfailed]
    refine ⟨h.dialect_eq, h.listening, h.pongs, fun hlive => ?_, fun error' herror => ?_⟩
    · rw [hfailed] at hlive
      cases hlive
    · rw [hfailed] at herror
      cases herror
      exact ⟨cause, hcause, fun more => by rw [List.append_assoc, hdead]⟩
  | none =>
    have hstream : ∀ more, transcript dialect firstList (read ++ bytes ++ more) =
        (session.peer.outlook (session.leftover ++ bytes ++ more)).after session.queued :=
      fun more => by rw [List.append_assoc, (h.live hfailed).2, List.append_assoc]
    have hpongs := h.pongs hfailed
    have hdialect := h.dialect_eq
    have houtcome := session.peer.receive_outcome session.target (session.leftover ++ bytes)
    cases hreceived : session.peer.receive session.target (session.leftover ++ bytes) with
    | mk result next reached =>
    rw [hreceived] at houtcome
    cases houtcome with
    | @waits _ _ rest new hqueued hrest hshort hdone hnextPongs hnext =>
      have hall : session.taken ++ next.inbox = session.queued ++ new :=
        hqueued.append_inbox session.taken
      rw [feed_of_ok hfailed hreceived hrest]
      refine ⟨hqueued.dialect.trans hdialect, hqueued.listening.trans h.listening,
        fun _ count hcount => ?_, fun _ => ⟨hdone, fun more => ?_⟩, fun error herror => ?_⟩
      · rw [hdialect] at hnextPongs
        refine hnextPongs count (hpongs (new.length + count) ?_)
        rwa [queued, hall, List.length_append, Nat.add_assoc] at hcount
      · rw [queued, hall, hstream, hnext, Transcript.after_after]
      · cases herror
    | @breaks _ _ cause new hqueued hnext =>
      have hall : session.taken ++ next.inbox = session.queued ++ new :=
        hqueued.append_inbox session.taken
      rw [feed_of_error hfailed hreceived]
      refine ⟨hqueued.dialect.trans hdialect, hqueued.listening.trans h.listening,
        fun hlive => ?_, fun hlive => ?_, fun error herror => ?_⟩
      · cases hlive
      · cases hlive
      · cases herror
        exact ⟨cause, rfl, fun more => by rw [queued, hall, hstream, hnext]; rfl⟩
    | @refused _ _ error new lost hqueued hrefusal hnext =>
      -- The lost message is among those that the stream decodes as, for which there is room and
      -- a pong is taken.
      obtain ⟨later, hlater⟩ := hnext []
      have hdecoded := hstream []
      rw [hlater, List.append_nil, Transcript.after_after] at hdecoded
      have hlength : session.queued.length + (new.length + 1) ≤
          (transcript dialect firstList (read ++ bytes)).messages.length := by
        rw [hdecoded]
        simp only [Transcript.messages_after, List.length_append, List.length_singleton]
        omega
      cases hrefusal with
      | write hwrite hnot =>
        rw [hdialect] at hnot
        exact absurd (hpongs (new.length + 1) (htakes.mono hlength)) hnot
      | deaf hlistening => rw [h.listening] at hlistening; cases hlistening
      | full hfull =>
        rw [queued, List.length_append] at hlength
        rw [List.length_append] at hfull
        omega

/-- What decoding a buffer yields is its transcript. -/
theorem decodeAll_eq_transcript (dialect : Dialect) (firstList : ListId) (buffer : Bytes) :
    (Frame.decodeAll dialect firstList buffer).1.map Prod.fst =
        (transcript dialect firstList buffer).messages ∧
      (Frame.decodeAll dialect firstList buffer).2 =
        (transcript dialect firstList buffer).error :=
  ⟨rfl, rfl⟩

/-- An unhindered session is unhindered up to each of its moments. -/
theorem Unhindered.earlier {events earlier : List Event}
    (h : Unhindered dialect firstList target events) (hearlier : earlier <+: events) :
    Unhindered dialect firstList target earlier := by
  refine ⟨fun first hfirst => h.room first (hfirst.trans hearlier), h.pongs.mono ?_⟩
  obtain ⟨later, rfl⟩ := hearlier
  have hprefix := Frame.transcript_append dialect firstList (stream earlier) (stream later)
  have hlength := hprefix.length_le
  rw [← stream_append] at hlength
  simpa [transcript] using hlength

/-- A stream of no more bytes than the queue holds messages does not fill the queue. -/
theorem unhindered_of_short {events : List Event}
    (hshort : (stream events).length ≤ Peer.inboxCapacity)
    (hpongs : Peer.TakesPongs dialect (stream events).length target) :
    Unhindered dialect firstList target events := by
  have hcount (buffer : Bytes) :
      (Frame.decodeAll dialect firstList buffer).1.length ≤ buffer.length := by
    simpa [transcript] using Frame.length_messages_le dialect firstList buffer
  refine ⟨fun earlier hearlier => ?_, hpongs.mono (hcount _)⟩
  obtain ⟨later, hlater⟩ := hearlier
  have hbound := hcount (stream earlier)
  rw [← hlater, stream_append, List.length_append] at hshort
  omega

/-- An unhindered session follows its stream. The induction takes the events from the last one,
so that the hypotheses speak of the same start. -/
theorem follows_run {events : List Event} (h : Unhindered dialect firstList target events) :
    Follows dialect firstList target (stream events)
      (run (start (Peer.new dialect firstList) target) events) := by
  induction events using List.reverseRecOn with
  | nil => exact follows_start dialect firstList target
  | append_singleton earlier event ih =>
    have hearlier := ih (h.earlier (List.prefix_append _ _))
    have hroom := h.room _ (List.prefix_refl _)
    have htakes := h.pongs
    rw [run_append_singleton, stream_append] at hroom ⊢
    rw [stream_append] at htakes
    cases event with
    | take =>
      have hbytes : stream [Event.take] = [] := rfl
      rw [hbytes, List.append_nil]
      exact hearlier.take
    | chunk bytes =>
      have hbytes : stream [Event.chunk bytes] = bytes := List.append_nil bytes
      rw [hbytes] at hroom htakes ⊢
      rw [step, taken_feed] at hroom
      refine hearlier.feed bytes ?_ ?_
      · simpa [transcript] using hroom
      · simpa [transcript] using htakes

/-- However a stream is cut into chunks and whenever messages are taken, the messages queued so far
are at every moment those of decoding the bytes so far as one buffer, and the session has failed
exactly if that decoding ends in an error, with this error. So two ways to cut one stream queue the
same messages and fail with the same error. -/
theorem queued_eq_decoded {events : List Event}
    (h : Unhindered dialect firstList target events) :
    (∀ earlier, earlier <+: events →
      let session := run (start (Peer.new dialect firstList) target) earlier
      let decoded := Frame.decodeAll dialect firstList (stream earlier)
      session.queued = decoded.1.map Prod.fst ∧ session.failed = decoded.2.map .codec) ∧
    ∀ others, stream others = stream events → Unhindered dialect firstList target others →
      let session := run (start (Peer.new dialect firstList) target) events
      let other := run (start (Peer.new dialect firstList) target) others
      other.queued = session.queued ∧ other.failed = session.failed := by
  have hfollows {events : List Event} (h : Unhindered dialect firstList target events) :=
    (follows_run h).transcript_eq
  refine ⟨fun earlier hearlier => ?_, fun others hstream hothers => ?_⟩
  · obtain ⟨hqueued, hfailed⟩ := hfollows (h.earlier hearlier)
    obtain ⟨hmessages, herror⟩ := decodeAll_eq_transcript dialect firstList (stream earlier)
    exact ⟨hqueued.symm.trans hmessages.symm, hfailed.trans (congrArg _ herror.symm)⟩
  · obtain ⟨hqueued, hfailed⟩ := hfollows h
    obtain ⟨hothersQueued, hothersFailed⟩ := hfollows hothers
    rw [hstream] at hothersQueued hothersFailed
    exact ⟨hothersQueued.symm.trans hqueued, hothersFailed.trans hfailed.symm⟩

/-- The frame of a ping on the main network, with noise before it. -/
def noisyPing : Bytes :=
  let payload := Bytes.littleEndian 8 7
  [0xAA, 0xF9] ++ Network.main.magic ++ Header.encode (Text.utf8 "ping") payload ++ payload

/-- A ping that is cut inside the magic, the header and the payload, read by a peer that answers
into an outbox: the session is unhindered and the one message is that of the whole buffer, the ping
with its nonce. -/
theorem queued_eq_decoded_noisyPing :
    let dialect : Dialect := ⟨.main, Dialect.currentVersion, true⟩
    let target := some (Outbox.new maxMessageSize)
    let events := [Event.chunk (noisyPing.take 4), .chunk ((noisyPing.drop 4).take 10), .take,
      .chunk ((noisyPing.drop 14).take 15), .chunk (noisyPing.drop 29)]
    let ping := Message.ping (.parsed dialect (Bytes.littleEndian 8 7) 0 8) (some 7)
    Unhindered dialect ⟨0⟩ target events ∧
      (run (start (Peer.new dialect ⟨0⟩) target) events).queued =
        (Frame.decodeAll dialect ⟨0⟩ noisyPing).1.map Prod.fst ∧
      (run (start (Peer.new dialect ⟨0⟩) target) events).queued = [ping] ∧
      (run (start (Peer.new dialect ⟨0⟩) target) events).failed = none := by
  intro dialect target events ping
  have hstream : stream events = noisyPing := rfl
  have hlength : (stream events).length = 34 := by
    have hname : (Text.utf8 "ping").length ≤ Header.nameLength := by decide
    rw [hstream, noisyPing, List.length_append, List.length_append, Header.length_encode hname]
    rfl
  have hunhindered : Unhindered dialect ⟨0⟩ target events :=
    unhindered_of_short (by rw [hlength]; decide)
      (Outbox.takesPongs rfl (by rw [hlength]; decide))
  obtain ⟨hqueued, hfailed⟩ := (queued_eq_decoded hunhindered).1 events (List.prefix_refl _)
  rw [hstream] at hqueued hfailed hlength
  have hdecode : Frame.decode dialect ⟨0⟩ noisyPing = .ok (some (ping, noisyPing.length)) := by
    have hnoise : ¬ dialect.network.magic <:+: [0xAA, 0xF9] := fun hinfix =>
      absurd hinfix.length_le (by decide)
    have hping := Peer.decode_pingFrame hnoise 7 [] ⟨0⟩
    rwa [List.append_nil, ← List.length_append] at hping
  have hall : Frame.decodeAll dialect ⟨0⟩ noisyPing = ([(ping, noisyPing.length)], none) := by
    rw [Frame.decodeAll_of_some hdecode, List.drop_length, Frame.decodeAll_of_none rfl]
  rw [hall] at hfailed
  refine ⟨hunhindered, hqueued, ?_, hfailed⟩
  rw [hqueued, hall]
  rfl

end Session

end PeerProtocol
