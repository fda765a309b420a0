import Mathlib.Data.List.Induction
import PeerProtocol.Proofs.Connection.Hearing
import PeerProtocol.Proofs.Frame.Sequence

/-!
# Two connections and the stream between them

A channel is a connection that sends, a connection that receives, and the reliable stream of bytes
from the first to the second. The applications send and take messages and ask for the end whenever
they like, both connections take their turns in any order, the sending socket takes pieces of any
size, and the stream reaches the receiver in pieces of any size. What else the sender reads is
arbitrary, so it may answer any pings in between. The main statement, `delivered_in_order`, says
that the receiver decodes what the sender accepted, in that order: at every moment a beginning of
it, and all of it once everything was sent and read.
-/

namespace PeerProtocol

open PeerProtocol.Connection (Hears hears_start)
open PeerProtocol.Frame (transcript)

namespace Connection

/-- The application of a peer sends a message. -/
def send (connection : Connection Peer) (message : Message) :
    Except LinkError Nat × Connection Peer :=
  let (result, _, target) := connection.collaborator.send (some connection.outbox) message
  (result, { connection with outbox := target.getD connection.outbox })

/-- The application of a peer takes the oldest message, if one is waiting. -/
def take (connection : Connection Peer) : Option Message × Connection Peer :=
  match connection.collaborator.take? with
  | none => (none, connection)
  | some (message, peer) => (some message, { connection with collaborator := peer })

/-- The application of a peer asks for the end. -/
def requestClose (connection : Connection Peer) : Connection Peer :=
  { connection with outbox := connection.outbox.requestClose }

/-- The pongs that are accepted in a turn. -/
def pongs (connection : Connection Peer) (shutdown : Bool) (read : SocketRead) : List Message :=
  match connection.reading shutdown read with
  | none => []
  -- Reading appends to the queue, and only the frames of pongs.
  | some (_, after) =>
      (after.outbox.queue.drop connection.outbox.queue.length).map fun write =>
        Message.newPong connection.collaborator.dialect (Outbox.pongNonce write.unsent)

/-- The error that comes of reading in a turn, if one does. -/
def failure (connection : Connection Peer) (shutdown : Bool) (read : SocketRead) :
    Option LinkError :=
  (connection.reading shutdown read).bind fun came => LinkError.ofResult? came.1

/-- The bytes that are read in a turn. -/
def arrival (connection : Connection Peer) (shutdown : Bool) (read : SocketRead) : Bytes :=
  if (connection.reading shutdown read).isSome then read.chunk else []

end Connection

/-- Two connections of peers, all bytes that the sender's socket took and how many of them the
receiver has read, the messages that the sender accepted for sending, its pongs among them, the
messages that the receiver's application has taken, and the error that ended the receiving. -/
structure Channel where
  sender : Connection Peer
  receiver : Connection Peer
  sent : Bytes
  read : Nat
  accepted : List Message
  taken : List Message
  failure : Option LinkError

namespace Channel

/-- What the receiver's socket has to read. -/
inductive Arrival where
  | nothing
  /-- So many of the bytes that are on their way, as far as there are so many. -/
  | bytes (count : Nat)
  | ended
  | fails

/-- What happens to a channel. A read of the sender that a message is sent in the middle of counts
as two reads. -/
inductive Event where
  | send (message : Message) (made : message.Made)
  | senderTurn (shutdown : Bool) (read : Connection.SocketRead)
      (writes : Option (List Outbox.SocketWrite))
  | senderTake
  | senderClose
  | receiverTurn (shutdown : Bool) (arrival : Arrival) (writes : Option (List Outbox.SocketWrite))
  | receiverTake
  | receiverSend (message : Message)
  | receiverClose

/-- A channel between two new peers. -/
def start (writer reader : Dialect) (firstSent firstReceived : ListId) : Channel :=
  ⟨Connection.start (Peer.new writer firstSent), Connection.start (Peer.new reader firstReceived),
    [], 0, [], [], none⟩

/-- What the receiver's socket gives: bytes that are on their way, no more than there is room
for. -/
def incoming (channel : Channel) : Arrival → Connection.SocketRead
  | .nothing => .nothing
  | .bytes count =>
      let chunk := (channel.sent.drop channel.read).take (min count channel.receiver.room)
      if chunk.isEmpty then .nothing else .bytes chunk
  | .ended => .ended
  | .fails => .fails

/-- The channel after an event. -/
def step (channel : Channel) : Event → Channel
  | .send message _ =>
      let (result, sender) := channel.sender.send message
      { channel with
        sender := sender
        accepted := channel.accepted ++ (result.toOption.map fun _ => message).toList }
  | .senderTurn shutdown read writes =>
      let (sender, sent) := channel.sender.turn shutdown read writes
      { channel with
        sender := sender
        sent := channel.sent ++ sent
        accepted := channel.accepted ++ channel.sender.pongs shutdown read }
  | .senderTake => { channel with sender := channel.sender.take.2 }
  | .senderClose => { channel with sender := channel.sender.requestClose }
  | .receiverTurn shutdown arrival writes =>
      let read := channel.incoming arrival
      { channel with
        receiver := (channel.receiver.turn shutdown read writes).1
        read := channel.read + (channel.receiver.arrival shutdown read).length
        failure := channel.failure.or (channel.receiver.failure shutdown read) }
  | .receiverTake =>
      let (message, receiver) := channel.receiver.take
      { channel with receiver := receiver, taken := channel.taken ++ message.toList }
  | .receiverSend message => { channel with receiver := (channel.receiver.send message).2 }
  | .receiverClose => { channel with receiver := channel.receiver.requestClose }

/-- The channel after events in order. -/
def run (channel : Channel) (events : List Event) : Channel :=
  events.foldl step channel

/-- The messages that the receiver has decoded for its application. -/
def delivered (channel : Channel) : List Message :=
  channel.taken ++ channel.receiver.collaborator.inbox

/-- The sender has sent all that it accepted, and the receiver has read all that was sent. -/
structure Drained (channel : Channel) : Prop where
  queue : channel.sender.outbox.queue = []
  intact : channel.sender.outbox.Intact
  read : channel.read = channel.sent.length

/-- The receiver was never refused room in its queue or an answer to a ping. -/
def Unhindered (channel : Channel) : Prop :=
  ∀ error, channel.failure = some error → error.isRefusal = false

/-- The last event is the last step. -/
theorem run_append_singleton (channel : Channel) (events : List Event) (event : Event) :
    channel.run (events ++ [event]) = (channel.run events).step event := by
  simp [run]

variable {writer reader : Dialect} {first : ListId} {channel : Channel}

/-! ## What every run preserves -/

/-- A channel is sound if the sender's socket took a beginning of the frames of the accepted
messages and the receiver hears the part of it that it has read. -/
structure Sound (writer reader : Dialect) (first : ListId) (channel : Channel) : Prop where
  dialect_eq : channel.sender.collaborator.dialect = writer
  carries : ∃ stream, Framed writer channel.accepted stream ∧
    channel.sender.outbox.Carries channel.sent stream
  read_le : channel.read ≤ channel.sent.length
  roomy : Frame.overhead ≤ channel.receiver.capacity
  failed : ∀ error, channel.failure = some error → channel.receiver.isClosed = true
  hears : Hears reader first (channel.sent.take channel.read) channel.receiver.collaborator
    channel.receiver.buffered channel.taken channel.failure

/-- A channel between two new peers is sound. -/
theorem sound_start (writer reader : Dialect) (firstSent firstReceived : ListId) :
    Sound writer reader firstReceived (start writer reader firstSent firstReceived) where
  dialect_eq := rfl
  carries := ⟨[], .nil, Or.inl rfl⟩
  read_le := Nat.le_refl 0
  roomy := by
    show Frame.overhead ≤ Connection.bufferSize maxMessageSize
    decide
  failed _ herror := by cases herror
  hears := hears_start reader firstReceived

/-! ### The sender -/

/-- Whatever the sender does, if what it then accepts and sends goes on as frames, the channel stays
sound: the receiver has read no more. -/
theorem Sound.withSender (h : Sound writer reader first channel) {sender : Connection Peer}
    {sent stream : Bytes} {more : List Message} (hdialect : sender.collaborator.dialect = writer)
    (hframed : Framed writer (channel.accepted ++ more) stream)
    (hcarries : sender.outbox.Carries (channel.sent ++ sent) stream) :
    Sound writer reader first { channel with
      sender := sender, sent := channel.sent ++ sent, accepted := channel.accepted ++ more } := by
  -- More bytes on their way do not change those that were read.
  have htake : (channel.sent ++ sent).take channel.read = channel.sent.take channel.read :=
    List.take_append_of_le_length h.read_le
  refine ⟨hdialect, ⟨stream, hframed, hcarries⟩, ?_, h.roomy, h.failed, ?_⟩
  · show channel.read ≤ (channel.sent ++ sent).length
    rw [List.length_append]
    exact Nat.le_add_right_of_le h.read_le
  · show Hears reader first ((channel.sent ++ sent).take channel.read) _ _ _ _
    rw [htake]
    exact h.hears

/-- The same where nothing is accepted or sent. -/
theorem Sound.withIdleSender (h : Sound writer reader first channel) {sender : Connection Peer}
    (hdialect : sender.collaborator.dialect = writer)
    (hcarries : ∀ sent stream, channel.sender.outbox.Carries sent stream →
      sender.outbox.Carries sent stream) :
    Sound writer reader first { channel with sender := sender } :=
  let ⟨stream, hframed, hstream⟩ := h.carries
  ⟨hdialect, ⟨stream, hframed, hcarries _ _ hstream⟩, h.read_le, h.roomy, h.failed, h.hears⟩

/-- Sending leaves all of a connection but its outbox, which either accepts the message's frame or
keeps what waits. -/
theorem send_spec (connection : Connection Peer) (message : Message) :
    (connection.send message).2 =
        { connection with outbox := (connection.send message).2.outbox } ∧
      (connection.send message).2.outbox.closed = connection.outbox.closed ∧
      ((∃ error, (connection.send message).1 = .error error ∧
          (connection.send message).2.outbox.queue = connection.outbox.queue ∧
          (connection.send message).2.outbox.resolved = connection.outbox.resolved) ∨
        ∃ ticket frame after, (connection.send message).1 = .ok ticket ∧
          Frame.ofMessage connection.collaborator.dialect message = (.ok frame, after) ∧
          connection.outbox.write frame = (.ok ticket, (connection.send message).2.outbox)) := by
  unfold Connection.send Peer.send
  cases hframe : Frame.ofMessage connection.collaborator.dialect message with
  | mk framed after =>
  cases framed with
  | error error => exact ⟨rfl, rfl, Or.inl ⟨_, rfl, rfl, rfl⟩⟩
  | ok frame =>
    have hwrite : WriteTarget.write connection.outbox frame = connection.outbox.write frame := rfl
    simp only [hwrite]
    cases hresult : connection.outbox.write frame with
    | mk result next =>
    cases result with
    | error error =>
      obtain ⟨-, hqueue, hclosed, hresolved⟩ := Outbox.write_eq_error hresult
      exact ⟨trivial, hclosed, Or.inl ⟨error, rfl, hqueue, hresolved⟩⟩
    | ok ticket =>
      obtain ⟨-, -, hclosed, -⟩ := Outbox.write_eq_ok hresult
      exact ⟨trivial, hclosed, Or.inr ⟨ticket, frame, after, rfl, rfl, hresult⟩⟩

/-- A message that the sender's application sends is accepted as its frame, or what waits is as
before. -/
theorem Sound.send (h : Sound writer reader first channel) {message : Message}
    (made : message.Made) : Sound writer reader first (channel.step (.send message made)) := by
  obtain ⟨stream, hframed, hcarries⟩ := h.carries
  obtain ⟨hsender, hclosed, hcases⟩ := send_spec channel.sender message
  have hdialect : (channel.sender.send message).2.collaborator.dialect = writer := by
    rw [hsender]
    exact h.dialect_eq
  have hsent : ∀ {other : Bytes},
      (channel.sender.send message).2.outbox.Carries channel.sent other →
        (channel.sender.send message).2.outbox.Carries (channel.sent ++ []) other := by
    intro other hother
    rwa [List.append_nil]
  have hstep : channel.step (.send message made) = { channel with
      sender := (channel.sender.send message).2
      sent := channel.sent ++ []
      accepted := channel.accepted ++
        ((channel.sender.send message).1.toOption.map fun _ => message).toList } := by
    rw [List.append_nil]
    rfl
  rw [hstep]
  rcases hcases with ⟨error, hresult, hqueue, hresolved⟩ |
    ⟨ticket, frame, after, hresult, hframe, hwrite⟩
  · refine h.withSender hdialect ?_ (hsent (hcarries.congr hqueue hclosed hresolved))
    rw [hresult]
    show Framed writer (channel.accepted ++ []) stream
    rwa [List.append_nil]
  · obtain ⟨hopen, hqueue, -, -⟩ := Outbox.write_eq_ok hwrite
    rw [h.dialect_eq] at hframe
    refine h.withSender hdialect ?_ (hsent (hcarries.append hopen hqueue))
    rw [hresult]
    have hone : [(⟨ticket, frame⟩ : QueuedWrite)].flatMap (·.unsent) = frame :=
      List.append_nil frame
    rw [hone]
    exact hframed.append (.singleton made.coherent hframe)

/-- What the sender reads makes it accept pongs. -/
theorem carries_reading {sender after : Connection Peer} {sent stream : Bytes} {shutdown : Bool}
    {read : Connection.SocketRead} {result : Except LinkError Bool}
    (hreading : sender.reading shutdown read = some (result, after))
    (hcarries : sender.outbox.Carries sent stream) :
    after.collaborator.dialect = sender.collaborator.dialect ∧ after.outbox.closed = false ∧
      ∃ pongs, Framed sender.collaborator.dialect (sender.pongs shutdown read) pongs ∧
        after.outbox.Carries sent (stream ++ pongs) := by
  obtain ⟨hopen, hread⟩ := Connection.isClosed_of_reading hreading
  obtain ⟨⟨nonces, ⟨writes, hqueue, hwrites⟩, hclosed, -⟩, hdialect⟩ := sender.read_answered read
  rw [hread] at hqueue hclosed hdialect
  have hnew : after.outbox.queue.drop sender.outbox.queue.length = writes := by
    rw [hqueue, List.drop_left]
  have hpongs : sender.pongs shutdown read =
      nonces.map (Message.newPong sender.collaborator.dialect) := by
    have hmap : writes.map (fun write => Outbox.pongNonce write.unsent) = nonces :=
      calc writes.map (fun write => Outbox.pongNonce write.unsent)
          = (writes.map (·.unsent)).map Outbox.pongNonce := by
            rw [List.map_map]
            rfl
        _ = (nonces.map (Peer.pongFrame sender.collaborator.dialect)).map Outbox.pongNonce := by
            rw [hwrites]
        _ = nonces := by
            rw [List.map_map]
            exact List.map_id'' (Outbox.pongNonce_pongFrame sender.collaborator.dialect) nonces
    rw [Connection.pongs, hreading, ← hmap, List.map_map, ← hnew]
    rfl
  have hbytes : writes.flatMap (·.unsent) =
      nonces.flatMap (Peer.pongFrame sender.collaborator.dialect) := by
    rw [List.flatMap_def, hwrites, ← List.flatMap_def]
  refine ⟨hdialect, hclosed.trans hopen, _, ?_, hcarries.append hopen hqueue⟩
  rw [hpongs, hbytes]
  exact Framed.pongs sender.collaborator.dialect nonces

/-- What the sender has written was sent or waits, or the socket failed and what waits is given
up. -/
theorem carries_written {sender : Connection Peer} {sent stream : Bytes}
    (hcarries : sender.outbox.Carries sent stream) (hopen : sender.outbox.closed = false)
    (attempts : List Outbox.SocketWrite) :
    (sender.written attempts).outbox.Carries (sent ++ (sender.outbox.flush attempts).sent)
      stream := by
  have hflushed := hcarries.flush hopen attempts
  unfold Connection.written
  simp only
  split
  next =>
    rw [(Connection.close_spec _).1]
    exact hflushed.close
  next => exact hflushed

/-- A turn of the sender sends of what was accepted, pongs of the turn included. -/
theorem Sound.senderTurn (h : Sound writer reader first channel) (shutdown : Bool)
    (read : Connection.SocketRead) (writes : Option (List Outbox.SocketWrite)) :
    Sound writer reader first (channel.step (.senderTurn shutdown read writes)) := by
  obtain ⟨stream, hframed, hcarries⟩ := h.carries
  have hturned := channel.sender.turn_turned shutdown read writes
  have hstep : channel.step (.senderTurn shutdown read writes) = { channel with
      sender := (channel.sender.turn shutdown read writes).1
      sent := channel.sent ++ (channel.sender.turn shutdown read writes).2
      accepted := channel.accepted ++ channel.sender.pongs shutdown read } := rfl
  rw [hstep]
  generalize (channel.sender.turn shutdown read writes).1 = after at hturned ⊢
  generalize (channel.sender.turn shutdown read writes).2 = sent at hturned ⊢
  have hnone : channel.sender.reading shutdown read = none →
      channel.sender.pongs shutdown read = [] := fun hreading => by
    rw [Connection.pongs, hreading]
  cases hturned with
  | idle hclosed hreading =>
    rw [hnone hreading]
    have hsame : Framed writer (channel.accepted ++ []) stream := by rwa [List.append_nil]
    refine h.withSender h.dialect_eq hsame ?_
    rwa [List.append_nil]
  | ends hopen hreading =>
    obtain ⟨houtbox, -, hpeer, -⟩ := channel.sender.close_spec
    rw [hnone hreading]
    have hsame : Framed writer (channel.accepted ++ []) stream := by rwa [List.append_nil]
    refine h.withSender (by rw [hpeer]; exact h.dialect_eq) hsame ?_
    rw [List.append_nil, houtbox]
    exact hcarries.close
  | @stops result after hreading =>
    obtain ⟨hdialect, -, pongs, hpongs, hmore⟩ := carries_reading hreading hcarries
    obtain ⟨houtbox, -, hpeer, -⟩ := after.close_spec
    rw [h.dialect_eq] at hdialect hpongs
    refine h.withSender (by rw [hpeer]; exact hdialect) (hframed.append hpongs) ?_
    rw [List.append_nil, houtbox]
    exact hmore.close
  | @reads after hreading =>
    obtain ⟨hdialect, -, pongs, hpongs, hmore⟩ := carries_reading hreading hcarries
    rw [h.dialect_eq] at hdialect hpongs
    refine h.withSender hdialect (hframed.append hpongs) ?_
    rwa [List.append_nil]
  | @writes after attempts hreading =>
    obtain ⟨hdialect, hopen, pongs, hpongs, hmore⟩ := carries_reading hreading hcarries
    obtain ⟨hpeer, -, -⟩ := after.written_spec attempts
    rw [h.dialect_eq] at hdialect hpongs
    exact h.withSender (by rw [hpeer]; exact hdialect) (hframed.append hpongs)
      (carries_written hmore hopen attempts)

/-! ### The receiver -/

/-- A change of the receiver that leaves its peer, what was left over and whether it has ended
leaves the channel sound. -/
theorem Sound.withReceiver (h : Sound writer reader first channel) {receiver : Connection Peer}
    (hpeer : receiver.collaborator = channel.receiver.collaborator)
    (hbuffered : receiver.buffered = channel.receiver.buffered)
    (hcapacity : receiver.capacity = channel.receiver.capacity)
    (hclosed : channel.receiver.isClosed = true → receiver.isClosed = true) :
    Sound writer reader first { channel with receiver := receiver } := by
  refine ⟨h.dialect_eq, h.carries, h.read_le, ?_, fun error herror => ?_, ?_⟩
  · show Frame.overhead ≤ receiver.capacity
    rw [hcapacity]
    exact h.roomy
  · exact hclosed (h.failed error herror)
  · show Hears reader first _ receiver.collaborator receiver.buffered _ _
    rw [hpeer, hbuffered]
    exact h.hears

/-- The receiver's application takes what was delivered. -/
theorem Sound.receiverTake (h : Sound writer reader first channel) :
    Sound writer reader first (channel.step .receiverTake) := by
  unfold step Connection.take Peer.take?
  cases hinbox : channel.receiver.collaborator.inbox with
  | nil =>
    show Sound writer reader first { channel with taken := channel.taken ++ [] }
    rwa [List.append_nil]
  | cons message rest =>
    exact ⟨h.dialect_eq, h.carries, h.read_le, h.roomy, h.failed, h.hears.take hinbox⟩

/-- What the receiver's socket gives are the next bytes on their way. -/
theorem chunk_incoming (channel : Channel) (arrival : Arrival) :
    (channel.incoming arrival).chunk <+: channel.sent.drop channel.read := by
  cases arrival with
  | bytes count =>
    unfold incoming
    simp only
    split
    next => exact List.nil_prefix
    next => exact List.take_prefix _ _
  | _ => exact List.nil_prefix

/-- A receiver that hears the next bytes of the stream leaves the channel sound, and has ended if an
error came of them. -/
theorem Sound.withRead (h : Sound writer reader first channel) {receiver : Connection Peer}
    {chunk : Bytes} {failure : Option LinkError} (hchunk : chunk <+: channel.sent.drop channel.read)
    (hcapacity : receiver.capacity = channel.receiver.capacity)
    (hfailed : ∀ error, failure = some error → receiver.isClosed = true)
    (hhears : Hears reader first (channel.sent.take channel.read ++ chunk) receiver.collaborator
      receiver.buffered channel.taken failure) :
    Sound writer reader first { channel with
      receiver := receiver, read := channel.read + chunk.length, failure := failure } := by
  have hall : channel.sent.take (channel.read + chunk.length) =
      channel.sent.take channel.read ++ chunk := by
    rw [List.take_add, ← List.prefix_iff_eq_take.1 hchunk]
  refine ⟨h.dialect_eq, h.carries, ?_, ?_, hfailed, ?_⟩
  · show channel.read + chunk.length ≤ channel.sent.length
    have hlength := hchunk.length_le
    rw [List.length_drop] at hlength
    have hread := h.read_le
    omega
  · show Frame.overhead ≤ receiver.capacity
    rw [hcapacity]
    exact h.roomy
  · show Hears reader first (channel.sent.take (channel.read + chunk.length)) _ _ _ _
    rw [hall]
    exact hhears

/-- What is on its way to the receiver ends in no error, together with what waits behind it. -/
theorem Sound.error_eq (hnetwork : reader.network = writer.network)
    (h : Sound writer reader first channel) {chunk : Bytes}
    (hchunk : chunk <+: channel.sent.drop channel.read) :
    ∃ more,
      (transcript reader first (channel.sent.take channel.read ++ chunk ++ more)).error = none := by
  obtain ⟨stream, hframed, hcarries⟩ := h.carries
  obtain ⟨behind, hbehind⟩ := hcarries.sent_prefix
  obtain ⟨later, hlater⟩ := hchunk
  refine ⟨later ++ behind, ?_⟩
  have hstream : channel.sent.take channel.read ++ chunk ++ (later ++ behind) = stream :=
    calc channel.sent.take channel.read ++ chunk ++ (later ++ behind)
        = channel.sent.take channel.read ++ (chunk ++ later) ++ behind := by
          simp only [List.append_assoc]
      _ = stream := by rw [hlater, List.take_append_drop, hbehind]
  rw [hstream]
  exact (hframed.transcript_eq hnetwork first).2

/-- The receiver hears what it reads: reading leaves its capacity, and a channel that has failed
has a receiver that reads no more. -/
theorem Sound.hears_reading (hnetwork : reader.network = writer.network)
    (h : Sound writer reader first channel) {shutdown : Bool} {read : Connection.SocketRead}
    {result : Except LinkError Bool} {after : Connection Peer}
    (hchunk : read.chunk <+: channel.sent.drop channel.read)
    (hreading : channel.receiver.reading shutdown read = some (result, after)) :
    channel.failure = none ∧ after.capacity = channel.receiver.capacity ∧
      Hears reader first (channel.sent.take channel.read ++ read.chunk) after.collaborator
        after.buffered channel.taken (LinkError.ofResult? result) := by
  obtain ⟨hopen, hread⟩ := Connection.isClosed_of_reading hreading
  -- An error ends the connection, so a receiver that still reads has seen none.
  have hnone : channel.failure = none := by
    cases hfailure : channel.failure with
    | none => rfl
    | some error =>
      rw [h.failed error hfailure] at hopen
      cases hopen
  obtain ⟨more, hsound⟩ := h.error_eq hnetwork hchunk
  have hhears := h.hears
  rw [hnone] at hhears
  have hnext := hhears.read h.roomy hsound
  have hcapacity := channel.receiver.capacity_read read
  rw [hread] at hnext hcapacity
  exact ⟨hnone, hcapacity, hnext⟩

/-- A turn of the receiver hears the bytes that it reads. -/
theorem Sound.receiverTurn (hnetwork : reader.network = writer.network)
    (h : Sound writer reader first channel) (shutdown : Bool) (arrival : Arrival)
    (writes : Option (List Outbox.SocketWrite)) :
    Sound writer reader first (channel.step (.receiverTurn shutdown arrival writes)) := by
  have hchunk := chunk_incoming channel arrival
  have hstep : channel.step (.receiverTurn shutdown arrival writes) = { channel with
      receiver := (channel.receiver.turn shutdown (channel.incoming arrival) writes).1
      read := channel.read + (channel.receiver.arrival shutdown (channel.incoming arrival)).length
      failure :=
        channel.failure.or (channel.receiver.failure shutdown (channel.incoming arrival)) } := rfl
  rw [hstep]
  generalize channel.incoming arrival = read at hchunk ⊢
  have hturned := channel.receiver.turn_turned shutdown read writes
  generalize (channel.receiver.turn shutdown read writes).1 = after at hturned ⊢
  generalize (channel.receiver.turn shutdown read writes).2 = sent at hturned
  have hidle : channel.receiver.reading shutdown read = none →
      channel.receiver.arrival shutdown read = [] ∧ channel.receiver.failure shutdown read = none :=
    fun hreading => by
      rw [Connection.arrival, Connection.failure, hreading]
      exact ⟨rfl, rfl⟩
  have hread : ∀ {came : Except LinkError Bool × Connection Peer},
      channel.receiver.reading shutdown read = some came →
      channel.receiver.arrival shutdown read = read.chunk ∧
        channel.receiver.failure shutdown read = LinkError.ofResult? came.1 :=
    fun hreading => by
      rw [Connection.arrival, Connection.failure, hreading]
      exact ⟨rfl, rfl⟩
  cases hturned with
  | idle hclosed hreading =>
    obtain ⟨harrival, hfailure⟩ := hidle hreading
    rw [harrival, hfailure, Option.or_none]
    exact h
  | ends hopen hreading =>
    obtain ⟨harrival, hfailure⟩ := hidle hreading
    obtain ⟨-, hended, hpeer, hbuffered, hcapacity⟩ := channel.receiver.close_spec
    rw [harrival, hfailure, Option.or_none]
    exact h.withReceiver hpeer hbuffered hcapacity fun _ => hended
  | @stops result after hreading =>
    obtain ⟨hnone, hcapacity, hhears⟩ := h.hears_reading hnetwork hchunk hreading
    obtain ⟨harrival, hfailure⟩ := hread hreading
    obtain ⟨-, hended, hpeer, hbuffered, hsize⟩ := after.close_spec
    rw [harrival, hfailure, hnone, Option.none_or]
    refine h.withRead hchunk (hsize.trans hcapacity) (fun _ _ => hended) ?_
    rw [hpeer, hbuffered]
    exact hhears
  | @reads after hreading =>
    obtain ⟨hnone, hcapacity, hhears⟩ := h.hears_reading hnetwork hchunk hreading
    obtain ⟨harrival, hfailure⟩ := hread hreading
    rw [harrival, hfailure, hnone, Option.none_or]
    exact h.withRead hchunk hcapacity (fun _ herror => nomatch herror) hhears
  | @writes after attempts hreading =>
    obtain ⟨hnone, hcapacity, hhears⟩ := h.hears_reading hnetwork hchunk hreading
    obtain ⟨harrival, hfailure⟩ := hread hreading
    obtain ⟨hpeer, hbuffered, hsize⟩ := after.written_spec attempts
    rw [harrival, hfailure, hnone, Option.none_or]
    refine h.withRead hchunk (hsize.trans hcapacity) (fun _ herror => nomatch herror) ?_
    rw [hpeer, hbuffered]
    exact hhears

/-! ### Every event -/

/-- Taking a message leaves all of a connection but its peer, and the dialect of that. -/
theorem take_spec (connection : Connection Peer) :
    (connection.take).2.outbox = connection.outbox ∧
      (connection.take).2.collaborator.dialect = connection.collaborator.dialect := by
  unfold Connection.take Peer.take?
  split
  next => exact ⟨rfl, rfl⟩
  next message peer htaken =>
    split at htaken
    next => cases htaken
    next =>
      obtain ⟨-, rfl⟩ := Prod.mk.inj (Option.some.inj htaken)
      exact ⟨rfl, rfl⟩

/-- Every event leaves a channel between peers of one network sound. -/
theorem Sound.step (hnetwork : reader.network = writer.network)
    (h : Sound writer reader first channel) (event : Event) :
    Sound writer reader first (channel.step event) := by
  cases event with
  | send message made => exact h.send made
  | senderTurn shutdown read writes => exact h.senderTurn shutdown read writes
  | senderTake =>
    obtain ⟨houtbox, hdialect⟩ := take_spec channel.sender
    refine h.withIdleSender (hdialect.trans h.dialect_eq) fun sent stream hcarries => ?_
    rw [houtbox]
    exact hcarries
  | senderClose =>
    exact h.withIdleSender h.dialect_eq fun _ _ hcarries => hcarries.congr rfl rfl rfl
  | receiverTurn shutdown arrival writes => exact h.receiverTurn hnetwork shutdown arrival writes
  | receiverTake => exact h.receiverTake
  | receiverSend message =>
    obtain ⟨hreceiver, hclosed, -⟩ := send_spec channel.receiver message
    refine h.withReceiver ?_ ?_ ?_ fun hended => hclosed.trans hended
    all_goals rw [hreceiver]
  | receiverClose => exact h.withReceiver rfl rfl rfl id

/-- A channel between two new peers of one network stays sound. -/
theorem sound_run (hnetwork : reader.network = writer.network) (firstSent firstReceived : ListId)
    (events : List Event) :
    Sound writer reader firstReceived
      ((start writer reader firstSent firstReceived).run events) := by
  -- From the last event, so that the induction speaks of runs from one start.
  induction events using List.reverseRecOn with
  | nil => exact sound_start writer reader firstSent firstReceived
  | append_singleton events event ih =>
    rw [run_append_singleton]
    exact ih.step hnetwork event

/-! ## What is delivered -/

/-- Whatever happens to a channel between two peers of one network, what was delivered says the
same, in normal form, as a beginning of what the sender accepted. It says the same as all of it
once the sender has sent and the receiver has read everything, if the receiver always had room in
its queue and its pongs were accepted. The receiver finds no error in what it reads. -/
theorem delivered_in_order (writer reader : Dialect) (hnetwork : reader.network = writer.network)
    (firstSent firstReceived : ListId) (events : List Event) :
    let channel := (start writer reader firstSent firstReceived).run events
    channel.delivered.map Message.content <+: channel.accepted.map (·.content.normal) ∧
      (channel.Drained → channel.Unhindered →
        channel.delivered.map Message.content = channel.accepted.map (·.content.normal)) ∧
      ∀ error, channel.failure = some error → error.isRefusal = true ∨ error = .socket := by
  intro channel
  have hsound : Sound writer reader firstReceived channel :=
    sound_run hnetwork firstSent firstReceived events
  obtain ⟨stream, hframed, hcarries⟩ := hsound.carries
  obtain ⟨hmessages, -⟩ := hframed.transcript_eq hnetwork firstReceived
  refine ⟨?_, fun hdrained hunhindered => ?_, hsound.hears.cause⟩
  · obtain ⟨behind, hbehind⟩ := hcarries.sent_prefix
    have hprefix := hsound.hears.delivered_prefix (channel.sent.drop channel.read ++ behind)
    rw [← List.append_assoc, List.take_append_drop, hbehind] at hprefix
    rw [← hmessages]
    exact hprefix.map Message.content
  · have hsent := hcarries.sent_eq hdrained.queue hdrained.intact
    have hall : channel.sent.take channel.read = stream := by
      rw [hdrained.read, List.take_length, hsent]
    have hdelivered := hsound.hears.delivered_eq hunhindered
    rw [hall] at hdelivered
    rw [← hmessages, hdelivered]
    rfl

/-- A ping that the sender's socket takes in two pieces, each of which the receiver reads. -/
def cutPing : Channel :=
  let writer : Dialect := ⟨.main, Dialect.currentVersion, true⟩
  (start writer ⟨.main, 60001, false⟩ ⟨0⟩ ⟨0⟩).run
    [.send (Message.newPing writer 7) (.ping writer 7),
      .senderTurn false .nothing (some [.accepts 9, .blocks]),
      .receiverTurn false (.bytes 20) none,
      .senderTurn false .nothing (some [.accepts 100]),
      .receiverTurn false (.bytes 100) none]

/-- Everything was sent and read, nothing was refused, and the ping is what was delivered. -/
theorem delivered_in_order_cutPing :
    cutPing.Drained ∧ cutPing.Unhindered ∧
      cutPing.delivered.map Message.content = [.ping (some 7)] := by
  have hqueue : cutPing.sender.outbox.queue = [] := rfl
  have hresolved : cutPing.sender.outbox.resolved = [(0, .ok ())] := rfl
  have hread : cutPing.read = cutPing.sent.length := by decide +kernel
  have hfailure : cutPing.failure = none := by decide +kernel
  have hdrained : cutPing.Drained := by
    refine ⟨hqueue, fun outcome houtcome => ?_, hread⟩
    rw [hresolved] at houtcome
    rw [List.mem_singleton.1 houtcome]
  have hunhindered : cutPing.Unhindered := fun error herror => by
    rw [hfailure] at herror
    cases herror
  obtain ⟨-, hdelivered, -⟩ := delivered_in_order ⟨.main, Dialect.currentVersion, true⟩
    ⟨.main, 60001, false⟩ rfl ⟨0⟩ ⟨0⟩ [.send (Message.newPing _ 7) (.ping _ 7),
      .senderTurn false .nothing (some [.accepts 9, .blocks]),
      .receiverTurn false (.bytes 20) none,
      .senderTurn false .nothing (some [.accepts 100]),
      .receiverTurn false (.bytes 100) none]
  exact ⟨hdrained, hunhindered, hdelivered hdrained hunhindered⟩

end Channel

end PeerProtocol
