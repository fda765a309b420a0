import Mathlib.Data.List.Induction
import PeerProtocol.Proofs.Connection.Channel
import PeerProtocol.Proofs.Connection.Progress
import PeerProtocol.Proofs.Peer.Pings

/-!
# What becomes of accepted writes

An exchange is a connection of a peer between its application, which sends and takes messages, and
its socket, which has bytes to read and takes bytes that are written. The steps of a turn are events
of their own (`turn_eq_run`), so the application may act between any two of them. An exchange is
calm if nobody ends it from outside. The main statement, `sent_of_closed`, says that a calm exchange
which has closed without an error has sent all that was accepted, though it closes because a write
was refused for want of room, and that the only errors of a calm exchange on a sound stream are
refusals of a decoded message. Such a refusal does end the connection at once, also where it is a
pong that is refused, and whatever waits then fails (`step_read_refused`).
-/

namespace PeerProtocol

open PeerProtocol.Connection (Hears hears_start SocketRead)
open PeerProtocol.Frame (transcript)
open PeerProtocol.Outbox (Progress Open Ended)

namespace Outbox

/-- The writes that an outbox has queued since. -/
def queuedSince (before after : Outbox) : List Bytes :=
  (after.queue.drop before.queue.length).map (·.unsent)

end Outbox

/-- A connection, the bytes that it has read, the messages that the application has taken, the
writes that were accepted, the bytes that the socket took, and the error that ended it, if one
did. -/
structure Exchange where
  connection : Connection Peer
  arrived : Bytes
  taken : List Message
  accepted : List Bytes
  sent : Bytes
  failure : Option LinkError

namespace Exchange

/-- What happens in an exchange. -/
inductive Event where
  | send (message : Message)
  | take
  | requestClose
  /-- The connection ends if that has been asked for. -/
  | check (shutdown : Bool)
  | read (read : SocketRead)
  | write (attempts : List Outbox.SocketWrite)

/-- Nobody ends the connection from outside: neither the application nor a shutdown, nor the other
side, nor a broken socket. -/
def Event.isCalm : Event → Bool
  | .send _ | .take => true
  | .requestClose => false
  | .check shutdown => !shutdown
  | .read .nothing | .read (.bytes _) => true
  | .read .ended | .read .fails => false
  | .write attempts => !attempts.contains .fails

/-- A connection of a new peer. -/
def start (dialect : Dialect) (first : ListId) : Exchange :=
  ⟨Connection.start (Peer.new dialect first), [], [], [], [], none⟩

/-- The exchange after an event. A closed connection neither reads nor writes. -/
def step (exchange : Exchange) : Event → Exchange
  | .send message =>
      let after := (exchange.connection.send message).2
      { exchange with
        connection := after
        accepted := exchange.accepted ++ exchange.connection.outbox.queuedSince after.outbox }
  | .take =>
      let (message, after) := exchange.connection.take
      { exchange with connection := after, taken := exchange.taken ++ message.toList }
  | .requestClose => { exchange with connection := exchange.connection.requestClose }
  | .check shutdown =>
      if exchange.connection.mustEnd shutdown then
        { exchange with connection := exchange.connection.close }
      else exchange
  | .read read =>
      if exchange.connection.isClosed then exchange
      else
        let (result, after) := exchange.connection.read read
        { exchange with
          connection := match result with
            | .ok true => after
            | _ => after.close
          arrived := exchange.arrived ++ read.chunk
          accepted := exchange.accepted ++ exchange.connection.outbox.queuedSince after.outbox
          failure := LinkError.ofResult? result }
  | .write attempts =>
      if exchange.connection.isClosed then exchange
      else
        let flushed := exchange.connection.outbox.flush attempts
        { exchange with
          connection := exchange.connection.written attempts
          sent := exchange.sent ++ flushed.sent
          failure := if flushed.failed then some .socket else none }

/-- The exchange after events in order. -/
def run (exchange : Exchange) (events : List Event) : Exchange :=
  events.foldl step exchange

/-- The last event is the last step. -/
theorem run_append_singleton (exchange : Exchange) (events : List Event) (event : Event) :
    exchange.run (events ++ [event]) = (exchange.run events).step event := by
  simp [run]

/-- The first event is the first step. -/
theorem run_cons (exchange : Exchange) (event : Event) (events : List Event) :
    exchange.run (event :: events) = (exchange.step event).run events := rfl

/-- Nothing happens without events. -/
theorem run_nil (exchange : Exchange) : exchange.run [] = exchange := rfl

/-- A turn checks whether it must end the connection, reads, and writes if it may. -/
theorem turn_eq_run (exchange : Exchange) (shutdown : Bool) (read : SocketRead)
    (writes : Option (List Outbox.SocketWrite)) :
    ∃ events, events <+: [.check shutdown, .read read] ++ (writes.map .write).toList ∧
      (exchange.run events).connection = (exchange.connection.turn shutdown read writes).1 ∧
      (exchange.run events).sent =
        exchange.sent ++ (exchange.connection.turn shutdown read writes).2 := by
  unfold Connection.turn
  split
  next hclosed => exact ⟨[], List.nil_prefix, rfl, (List.append_nil _).symm⟩
  next hopen =>
    rw [Bool.not_eq_true] at hopen
    split
    next hend =>
      refine ⟨[.check shutdown], ⟨_, rfl⟩, ?_, ?_⟩
      · simp [run, step, hend]
      · simp [run, step, hend]
    next hgoesOn =>
      rw [Bool.not_eq_true] at hgoesOn
      have hchecked : exchange.step (.check shutdown) = exchange := by simp [step, hgoesOn]
      have hread : [Event.check shutdown, .read read] <+:
          [.check shutdown, .read read] ++ (writes.map .write).toList := ⟨_, rfl⟩
      simp only
      cases hresult : exchange.connection.read read with
      | mk result after =>
      split
      next error stopped heq =>
        obtain ⟨rfl, rfl⟩ := Prod.mk.inj heq
        exact ⟨_, hread, by simp [run, step, hgoesOn, hopen, hresult], by
          simp [run, step, hgoesOn, hopen]⟩
      next stopped heq =>
        obtain ⟨rfl, rfl⟩ := Prod.mk.inj heq
        exact ⟨_, hread, by simp [run, step, hgoesOn, hopen, hresult], by
          simp [run, step, hgoesOn, hopen]⟩
      next goesOn heq =>
        obtain ⟨rfl, rfl⟩ := Prod.mk.inj heq
        split
        next attempts =>
          split
          next =>
            have hstill : after.isClosed = false := by
              obtain ⟨⟨nonces, hanswered⟩, -⟩ := exchange.connection.read_answered read
              rw [hresult] at hanswered
              exact hanswered.closed.trans hopen
            refine ⟨_, List.prefix_rfl, ?_, ?_⟩
            · simp [run, step, hgoesOn, hopen, hresult, hstill, Connection.written]
            · simp [run, step, hgoesOn, hopen, hresult, hstill]
          next =>
            exact ⟨_, hread, by simp [run, step, hgoesOn, hopen, hresult], by
              simp [run, step, hgoesOn, hopen]⟩
        next =>
          exact ⟨_, hread, by simp [run, step, hgoesOn, hopen, hresult], by
            simp [run, step, hgoesOn, hopen]⟩

variable {dialect : Dialect} {first : ListId} {exchange : Exchange}
  {accepted finished waiting : List Bytes} {sent front : Bytes}

/-! ## What is queued -/

/-- An outbox that took more writes: they wait behind the others, and whether the end was asked for
is as before. -/
structure Grown (accepted : List Bytes) (sent : Bytes) (finished : List Bytes) (front : Bytes)
    (waiting : List Bytes) (before after : Outbox) (more : List Bytes) : Prop where
  queued : before.queuedSince after = more
  closeRequested : after.closeRequested = before.closeRequested
  queue_prefix : before.queue <+: after.queue
  progress : Progress (accepted ++ more) sent finished front (waiting ++ more)
  outbox : Open after finished front (waiting ++ more)

/-- An outbox that took nothing. -/
theorem grown_refl {outbox : Outbox} (hprogress : Progress accepted sent finished front waiting)
    (hopen : Open outbox finished front waiting) :
    Grown accepted sent finished front waiting outbox outbox [] where
  queued := by simp [Outbox.queuedSince]
  closeRequested := rfl
  queue_prefix := List.prefix_rfl
  progress := by simpa using hprogress
  outbox := by simpa using hopen

/-- One more write is queued or refused. -/
theorem Grown.write {before after : Outbox} {more : List Bytes}
    (h : Grown accepted sent finished front waiting before after more) (bytes : Bytes) :
    ∃ more, Grown accepted sent finished front waiting before (after.write bytes).2 more := by
  obtain ⟨writes, hqueue⟩ := h.queue_prefix
  cases hwrite : after.write bytes with
  | mk result next =>
  cases result with
  | error error =>
    refine ⟨more, ?_, ?_, ?_, h.progress, h.outbox.write_error hwrite⟩
    all_goals obtain ⟨-, rfl⟩ := Outbox.write_refused hwrite
    · exact h.queued
    · exact h.closeRequested
    · exact h.queue_prefix
  | ok ticket =>
    obtain ⟨hprogress, hopen⟩ := h.outbox.write_ok h.progress hwrite
    refine ⟨more ++ [bytes], ?_, ?_, ?_, by simpa using hprogress, by simpa using hopen⟩
    all_goals obtain ⟨-, -, rfl⟩ := Outbox.write_accepted hwrite
    · rw [← h.queued]
      simp [Outbox.queuedSince, ← hqueue]
    · exact h.closeRequested
    · exact h.queue_prefix.trans (List.prefix_append _ _)

/-- What an application sends is written at most. -/
theorem send_outbox (connection : Connection Peer) (message : Message) :
    ∃ outbox, (connection.send message).2 = { connection with outbox := outbox } ∧
      (outbox = connection.outbox ∨ ∃ bytes, outbox = (connection.outbox.write bytes).2) := by
  unfold Connection.send Peer.send
  cases hframe : Frame.ofMessage connection.collaborator.dialect message with
  | mk framed after =>
  cases framed with
  | error error => exact ⟨connection.outbox, rfl, .inl rfl⟩
  | ok frame => exact ⟨_, rfl, .inr ⟨frame, rfl⟩⟩

/-- What is read makes an outbox take pongs at most. -/
theorem grown_read {connection : Connection Peer}
    (hprogress : Progress accepted sent finished front waiting)
    (hopen : Open connection.outbox finished front waiting) (read : SocketRead) :
    ∃ more, Grown accepted sent finished front waiting connection.outbox
      (connection.read read).2.outbox more := by
  exact Connection.read_preserves
    (fun reached => ∃ more, Grown accepted sent finished front waiting connection.outbox reached
      more)
    (fun _ _ ⟨_, hgrown⟩ => hgrown.write _) ⟨[], grown_refl hprogress hopen⟩ read

/-- Only a socket that breaks makes a flush fail. -/
theorem flush_of_calm {attempts : List Outbox.SocketWrite} (hcalm : .fails ∉ attempts)
    (outbox : Outbox) : (outbox.flush attempts).failed = false := by
  induction attempts generalizing outbox with
  | nil => rfl
  | cons attempt attempts ih =>
    unfold Outbox.flush
    simp only
    split
    next => rfl
    next head rest hqueue =>
      cases attempt with
      | blocks => rfl
      | fails => exact absurd List.mem_cons_self hcalm
      | accepts count => exact ih (fun hmem => hcalm (List.mem_cons_of_mem _ hmem)) _

/-! ## What a calm run preserves -/

/-- How an exchange stands to its stream and its writes: it hears what it reads, an error has
closed it and is a refusal, and its writes are finished or wait as long as it is open. If it has
closed without an error, none waited, and a write was refused for want of room. -/
structure Sound (dialect : Dialect) (first : ListId) (exchange : Exchange) : Prop where
  roomy : Frame.overhead ≤ exchange.connection.capacity
  unasked : exchange.connection.outbox.closeRequested = false
  failed : ∀ error, exchange.failure = some error →
    exchange.connection.isClosed = true ∧ error.isRefusal = true
  hears : Hears dialect first exchange.arrived exchange.connection.collaborator
    exchange.connection.buffered exchange.taken exchange.failure
  writes : ∃ finished front waiting,
    Progress exchange.accepted exchange.sent finished front waiting ∧
      (Open exchange.connection.outbox finished front waiting ∨
        Ended exchange.connection.outbox finished waiting ∧
          (exchange.failure = none →
            waiting = [] ∧ exchange.connection.outbox.closeAfterFlush = true))

/-- A new exchange is sound. -/
theorem sound_start (dialect : Dialect) (first : ListId) :
    Sound dialect first (start dialect first) where
  roomy := by
    show Frame.overhead ≤ Connection.bufferSize maxMessageSize
    decide
  unasked := rfl
  failed _ herror := by cases herror
  hears := hears_start dialect first
  writes := ⟨[], [], [], ⟨rfl, rfl, List.nil_prefix⟩, .inl ⟨rfl, rfl, rfl, rfl, rfl, rfl⟩⟩

/-- An exchange that is open has not failed. -/
theorem Sound.failure_of_open (h : Sound dialect first exchange)
    (hopen : exchange.connection.isClosed = false) : exchange.failure = none := by
  cases hfailure : exchange.failure with
  | none => rfl
  | some error =>
    rw [(h.failed error hfailure).1] at hopen
    cases hopen

/-- The writes of an exchange that is open are queued. -/
theorem Sound.open_of_open (h : Sound dialect first exchange)
    (hopen : exchange.connection.isClosed = false) : ∃ finished front waiting,
      Progress exchange.accepted exchange.sent finished front waiting ∧
        Open exchange.connection.outbox finished front waiting := by
  obtain ⟨finished, front, waiting, hprogress, hqueued | ⟨hended, -⟩⟩ := h.writes
  · exact ⟨finished, front, waiting, hprogress, hqueued⟩
  · rw [Connection.isClosed, hended.closed] at hopen
    cases hopen

/-- Sending leaves an exchange sound, whether the frame is accepted or refused. -/
theorem Sound.send (h : Sound dialect first exchange) (message : Message) :
    Sound dialect first (exchange.step (.send message)) := by
  obtain ⟨outbox, hafter, houtbox⟩ := send_outbox exchange.connection message
  simp only [step, hafter]
  by_cases hclosed : exchange.connection.isClosed
  · -- A closed outbox refuses the frame and stays as it is.
    have hsame : outbox = exchange.connection.outbox := by
      rcases houtbox with hsame | ⟨bytes, hwritten⟩
      · exact hsame
      · have hclosing : exchange.connection.outbox.isClosing = true := by
          rw [Outbox.isClosing, show exchange.connection.outbox.closed = true from hclosed]
          rfl
        rw [hwritten, Outbox.write_of_closing hclosing]
    have hnone : exchange.connection.outbox.queuedSince exchange.connection.outbox = [] := by
      simp [Outbox.queuedSince]
    rw [hsame, hnone, List.append_nil]
    exact h
  · rw [Bool.not_eq_true] at hclosed
    obtain ⟨finished, front, waiting, hprogress, hopen⟩ := h.open_of_open hclosed
    have hrefl := grown_refl hprogress hopen
    obtain ⟨more, hgrown⟩ : ∃ more, Grown exchange.accepted exchange.sent finished front waiting
        exchange.connection.outbox outbox more := by
      rcases houtbox with rfl | ⟨bytes, rfl⟩
      · exact ⟨[], hrefl⟩
      · exact hrefl.write bytes
    refine ⟨h.roomy, hgrown.closeRequested.trans h.unasked, fun error herror => ?_, h.hears, ?_⟩
    · cases (h.failure_of_open hclosed).symm.trans herror
    · rw [hgrown.queued]
      exact ⟨finished, front, waiting ++ more, hgrown.progress, .inl hgrown.outbox⟩

/-- Taking a message leaves an exchange sound. -/
theorem Sound.take (h : Sound dialect first exchange) :
    Sound dialect first (exchange.step .take) := by
  unfold step Connection.take Peer.take?
  cases hinbox : exchange.connection.collaborator.inbox with
  | nil =>
    show Sound dialect first { exchange with taken := exchange.taken ++ [] }
    rwa [List.append_nil]
  | cons message rest =>
    exact ⟨h.roomy, h.unasked, h.failed, h.hears.take hinbox, h.writes⟩

/-- A check closes an exchange only where nothing waits. -/
theorem Sound.check (h : Sound dialect first exchange) :
    Sound dialect first (exchange.step (.check false)) := by
  simp only [step]
  split
  next hend =>
    obtain ⟨houtbox, hclosed, hpeer, hbuffered, hcapacity⟩ := exchange.connection.close_spec
    obtain ⟨hafterFlush, hqueue⟩ : exchange.connection.outbox.closeAfterFlush = true ∧
        exchange.connection.outbox.queue = [] := by
      simpa [Connection.mustEnd, h.unasked] using hend
    refine ⟨?_, ?_, fun error herror => ⟨hclosed, (h.failed error herror).2⟩, ?_, ?_⟩
    · rw [hcapacity]
      exact h.roomy
    · rw [houtbox, Outbox.closeRequested_close]
      exact h.unasked
    · rw [hpeer, hbuffered]
      exact h.hears
    · obtain ⟨finished, front, waiting, hprogress, hwrites⟩ := h.writes
      refine ⟨finished, front, waiting, hprogress, .inr ?_⟩
      rw [houtbox]
      rcases hwrites with hopen | ⟨hended, hnone⟩
      · refine ⟨hopen.close, fun _ => ⟨hopen.queue_eq_nil_iff.1 hqueue, ?_⟩⟩
        rw [Outbox.closeAfterFlush_close, hafterFlush]
      · rw [hended.close]
        exact ⟨hended, hnone⟩
  next => exact h

/-- Reading that goes on. -/
theorem step_read_of_ok (hopen : exchange.connection.isClosed = false) {read : SocketRead}
    {after : Connection Peer} (hread : exchange.connection.read read = (.ok true, after)) :
    exchange.step (.read read) = { exchange with
      connection := after
      arrived := exchange.arrived ++ read.chunk
      accepted := exchange.accepted ++ exchange.connection.outbox.queuedSince after.outbox
      failure := none } := by
  simp only [step, hopen, hread, Bool.false_eq_true, if_false, LinkError.ofResult?]

/-- An error closes the connection. -/
theorem step_read_of_error (hopen : exchange.connection.isClosed = false) {read : SocketRead}
    {error : LinkError} {after : Connection Peer}
    (hread : exchange.connection.read read = (.error error, after)) :
    exchange.step (.read read) = { exchange with
      connection := after.close
      arrived := exchange.arrived ++ read.chunk
      accepted := exchange.accepted ++ exchange.connection.outbox.queuedSince after.outbox
      failure := some error } := by
  simp only [step, hopen, hread, Bool.false_eq_true, if_false, LinkError.ofResult?]

/-- As long as nobody ends the connection, reading goes on or a decoded message is refused. -/
theorem read_of_calm {connection : Connection Peer} {arrived more : Bytes} {taken : List Message}
    {read : SocketRead} (hcalm : (Event.read read).isCalm = true)
    (hhears : Hears dialect first arrived connection.collaborator connection.buffered taken none)
    (hroom : Frame.overhead ≤ connection.capacity)
    (hstream : (transcript dialect first (arrived ++ read.chunk ++ more)).error = none) :
    (connection.read read).1 = .ok true ∨
      ∃ error, (connection.read read).1 = .error error ∧ error.isRefusal = true := by
  cases read with
  | nothing => exact .inl rfl
  | ended => cases hcalm
  | fails => cases hcalm
  | bytes chunk =>
    obtain ⟨-, hrefusal⟩ := hhears.offer hroom hstream
    show (connection.offer chunk).1.map (fun _ => true) = .ok true ∨
      ∃ error, (connection.offer chunk).1.map (fun _ => true) = .error error ∧ _
    cases hresult : (connection.offer chunk).1 with
    | ok _ => exact .inl rfl
    | error error => exact .inr ⟨error, rfl, hrefusal error hresult⟩

/-- Reading leaves an exchange sound, if what is read is part of a sound stream. -/
theorem Sound.read (h : Sound dialect first exchange) {read : SocketRead}
    (hcalm : (Event.read read).isCalm = true)
    (hstream : ∃ more,
      (transcript dialect first ((exchange.step (.read read)).arrived ++ more)).error = none) :
    Sound dialect first (exchange.step (.read read)) := by
  obtain ⟨behind, hstream⟩ := hstream
  by_cases hclosed : exchange.connection.isClosed
  · simpa only [step, hclosed, if_true] using h
  rw [Bool.not_eq_true] at hclosed
  obtain ⟨finished, front, waiting, hprogress, hopen⟩ := h.open_of_open hclosed
  obtain ⟨more, hgrown⟩ := grown_read hprogress hopen read
  have harrived : (exchange.step (.read read)).arrived = exchange.arrived ++ read.chunk := by
    simp only [step, hclosed, Bool.false_eq_true, if_false]
  rw [harrived] at hstream
  have hheard := h.hears
  rw [h.failure_of_open hclosed] at hheard
  have hresult := read_of_calm hcalm hheard h.roomy hstream
  have hnext := hheard.read h.roomy hstream
  have hcapacity := exchange.connection.capacity_read read
  cases hread : exchange.connection.read read with
  | mk result after =>
  rw [hread] at hgrown hnext hcapacity hresult
  have hroomy : Frame.overhead ≤ after.capacity := hcapacity ▸ h.roomy
  have hunasked : after.outbox.closeRequested = false := hgrown.closeRequested.trans h.unasked
  rcases hresult with rfl | ⟨error, rfl, hrefusal⟩
  · rw [step_read_of_ok hclosed hread, hgrown.queued]
    exact ⟨hroomy, hunasked, fun error herror => (nomatch herror), hnext,
      finished, front, waiting ++ more, hgrown.progress, .inl hgrown.outbox⟩
  · obtain ⟨houtbox, hended, hpeer, hbuffered, hsize⟩ := after.close_spec
    rw [step_read_of_error hclosed hread, hgrown.queued]
    refine ⟨?_, ?_, fun failure hfailure => ?_, ?_, finished, front, waiting ++ more,
      hgrown.progress, .inr ⟨?_, fun hnone => (nomatch hnone)⟩⟩
    · rwa [hsize]
    · rwa [houtbox, Outbox.closeRequested_close]
    · obtain rfl := Option.some.inj hfailure
      exact ⟨hended, hrefusal⟩
    · rw [hpeer, hbuffered]
      exact hnext
    · rw [houtbox]
      exact hgrown.outbox.close

/-- Writing to a socket that does not break leaves an exchange sound. -/
theorem Sound.write (h : Sound dialect first exchange) {attempts : List Outbox.SocketWrite}
    (hcalm : .fails ∉ attempts) : Sound dialect first (exchange.step (.write attempts)) := by
  by_cases hclosed : exchange.connection.isClosed
  · simpa only [step, hclosed, if_true] using h
  rw [Bool.not_eq_true] at hclosed
  obtain ⟨finished, front, waiting, hprogress, hopen⟩ := h.open_of_open hclosed
  obtain ⟨queue, remaining, resolved, -, hframe⟩ :=
    Outbox.flush_frame exchange.connection.outbox attempts
  obtain ⟨finished, front, waiting, hprogress, hflushed, -⟩ := hopen.flush hprogress attempts
  have hnone := flush_of_calm hcalm exchange.connection.outbox
  have hwell := h.failure_of_open hclosed
  have hheard := h.hears
  rw [hwell] at hheard
  simp only [step, hclosed, Connection.written, hnone, if_false, Bool.false_eq_true]
  refine ⟨h.roomy, ?_, fun error herror => (nomatch herror), hheard, ?_⟩
  · rw [hframe]
    exact h.unasked
  · exact ⟨finished, front, waiting, hprogress, .inl hflushed⟩

/-- What arrives in an event comes after what has arrived. -/
theorem arrived_step (exchange : Exchange) (event : Event) :
    exchange.arrived <+: (exchange.step event).arrived := by
  cases event with
  | read read =>
    simp only [step]
    split
    next => exact List.prefix_rfl
    next => exact List.prefix_append _ _
  | check shutdown =>
    simp only [step]
    split <;> exact List.prefix_rfl
  | write attempts =>
    simp only [step]
    split <;> exact List.prefix_rfl
  | _ => exact List.prefix_rfl

/-- A calm event leaves an exchange on a sound stream sound. -/
theorem Sound.step (h : Sound dialect first exchange) {event : Event} (hcalm : event.isCalm = true)
    (hstream : ∃ more,
      (transcript dialect first ((exchange.step event).arrived ++ more)).error = none) :
    Sound dialect first (exchange.step event) := by
  cases event with
  | send message => exact h.send message
  | take => exact h.take
  | requestClose => cases hcalm
  | check shutdown =>
    obtain rfl : shutdown = false := by simpa [Event.isCalm] using hcalm
    exact h.check
  | read read => exact h.read hcalm hstream
  | write attempts => exact h.write (by simpa [Event.isCalm] using hcalm)

/-- A calm exchange on a sound stream stays sound. -/
theorem sound_run {events : List Event} (hcalm : ∀ event ∈ events, event.isCalm = true)
    (hstream : ∃ more, (transcript dialect first
      (((start dialect first).run events).arrived ++ more)).error = none) :
    Sound dialect first ((start dialect first).run events) := by
  -- From the last event: what arrived before it is a beginning of the same stream.
  induction events using List.reverseRecOn with
  | nil => exact sound_start dialect first
  | append_singleton events event ih =>
    rw [run_append_singleton] at hstream ⊢
    have hlast : event.isCalm = true := hcalm event (by simp)
    obtain ⟨more, hmore⟩ := hstream
    obtain ⟨chunk, hchunk⟩ := arrived_step ((start dialect first).run events) event
    have hearlier : Sound dialect first ((start dialect first).run events) := by
      refine ih (fun earlier hmem => hcalm earlier (by simp [hmem])) ⟨chunk ++ more, ?_⟩
      rwa [← List.append_assoc, hchunk]
    exact hearlier.step hlast ⟨more, hmore⟩

/-! ## One message that waits -/

/-- Any payload is framed under a name that fits, if it is not too large. -/
theorem ofMessage_newUnknown (dialect : Dialect) (name : String) (payload : Bytes)
    (hname : (Text.utf8 name).length ≤ Header.nameLength ∧ 0 ∉ Text.utf8 name)
    (hsize : payload.length ≤ maxMessageSize) :
    ∃ frame after, Frame.ofMessage dialect (.newUnknown dialect name payload) = (.ok frame, after) ∧
      frame.length = payload.length + Frame.overhead := by
  refine ⟨dialect.network.magic ++ Header.encode (Text.utf8 name) payload ++ payload,
    (Frame.ofMessage dialect (.newUnknown dialect name payload)).2, Prod.ext ?_ rfl, ?_⟩
  · rw [← Frame.ofPayload_of_fits hsize hname.1 hname.2 dialect]
    exact Frame.ofMessage_of_fields rfl rfl hsize dialect
  · rw [List.length_append, List.length_append, dialect.network.length_magic,
      Header.length_encode hname.1, Frame.overhead, Header.length]
    omega

/-- A new exchange in which a message was sent whose frame waits. -/
def holding (dialect : Dialect) (first : ListId) (frame : Bytes) : Exchange :=
  { start dialect first with
    connection := { (start dialect first).connection with
      outbox := { Outbox.new maxMessageSize with
        queue := [⟨0, frame⟩], remaining := frame.length, accepted := 1 } }
    accepted := [frame] }

/-- In a new exchange the frame of a message is accepted if it fits. -/
theorem step_start_send {message after : Message} {frame : Bytes}
    (hframe : Frame.ofMessage dialect message = (.ok frame, after))
    (hfits : frame.length ≤ maxMessageSize + Frame.overhead) :
    (start dialect first).step (.send message) = holding dialect first frame := by
  have hroom : (Outbox.new maxMessageSize).remaining + frame.length ≤
      (Outbox.new maxMessageSize).budget := by
    show 0 + frame.length ≤ maxMessageSize + Frame.overhead
    rwa [Nat.zero_add]
  have hwrite := Outbox.write_of_fits
    (show (Outbox.new maxMessageSize).isClosing = false from rfl) hroom
  have hsent : (start dialect first).connection.send message =
      (.ok 0, (holding dialect first frame).connection) := by
    have htarget : WriteTarget.write (start dialect first).connection.outbox frame =
        (Outbox.new maxMessageSize).write frame := rfl
    have hdialect : (start dialect first).connection.collaborator.dialect = dialect := rfl
    simp only [Connection.send, Peer.send, hdialect, hframe, htarget, hwrite, Option.getD_some]
    simp [holding, Outbox.new]
  simp only [step, hsent]
  rfl

/-- The frame waits, and nothing else was accepted or sent. -/
theorem writes_holding (dialect : Dialect) (first : ListId) (frame : Bytes) :
    Progress (holding dialect first frame).accepted (holding dialect first frame).sent [] []
        [frame] ∧
      Open (holding dialect first frame).connection.outbox [] [] [frame] :=
  ⟨⟨rfl, rfl, List.nil_prefix⟩, ⟨rfl, rfl, rfl, rfl, rfl, (Nat.add_zero _).symm⟩⟩

/-- A frame that leaves no room for another makes the outbox refuse that. -/
theorem write_holding (dialect : Dialect) (first : ListId) {frame bytes : Bytes}
    (hlarge : maxMessageSize + Frame.overhead < frame.length + bytes.length) :
    (holding dialect first frame).connection.outbox.write bytes =
      (.error (.outboundOverflow frame.length bytes.length (maxMessageSize + Frame.overhead)),
        { (holding dialect first frame).connection.outbox with closeAfterFlush := true }) :=
  Outbox.write_of_overflow rfl hlarge

/-- A new exchange in which a frame waits and another was refused. -/
def refusing (dialect : Dialect) (first : ListId) (frame : Bytes) : Exchange :=
  { holding dialect first frame with
    connection := { (holding dialect first frame).connection with
      outbox := { (holding dialect first frame).connection.outbox with closeAfterFlush := true } } }

/-- Beside a frame that leaves no room for it a message is refused. -/
theorem step_holding_send {message after : Message} {frame bytes : Bytes}
    (hframe : Frame.ofMessage dialect message = (.ok bytes, after))
    (hlarge : maxMessageSize + Frame.overhead < frame.length + bytes.length) :
    (holding dialect first frame).step (.send message) = refusing dialect first frame := by
  have hwrite := write_holding dialect first hlarge
  have hsent : (holding dialect first frame).connection.send message =
      (.error (.outboundOverflow frame.length bytes.length (maxMessageSize + Frame.overhead)),
        (refusing dialect first frame).connection) := by
    have htarget : WriteTarget.write (holding dialect first frame).connection.outbox bytes =
        (holding dialect first frame).connection.outbox.write bytes := rfl
    have hdialect : (holding dialect first frame).connection.collaborator.dialect = dialect := rfl
    simp only [Connection.send, Peer.send, hdialect, hframe, htarget, hwrite, Option.getD_some]
    rfl
  simp only [step, hsent]
  rfl

/-- Once the socket has taken the frame, the next check ends the connection. -/
theorem step_refusing (dialect : Dialect) (first : ListId) {frame : Bytes} (hempty : frame ≠ [])
    {count : Nat} (hcount : frame.length ≤ count) :
    let exchange := ((refusing dialect first frame).step (.write [.accepts count])).step
      (.check false)
    exchange.failure = none ∧ exchange.connection.isClosed = true ∧ exchange.arrived = [] ∧
      exchange.accepted = [frame] ∧ exchange.sent = frame := by
  have hflushed : (refusing dialect first frame).connection.outbox.flush [.accepts count] =
      ⟨{ (refusing dialect first frame).connection.outbox with
        queue := [], remaining := 0, resolved := [(0, .ok ())] }, frame, false⟩ := by
    simp [refusing, holding, Outbox.new, Outbox.flush, Outbox.resolveFinished,
      Outbox.splitFinished, hempty, List.take_of_length_le hcount, List.drop_of_length_le hcount]
  have hopen : (refusing dialect first frame).connection.isClosed = false := rfl
  have hwritten : (refusing dialect first frame).step (.write [.accepts count]) =
      { refusing dialect first frame with
        connection := { (refusing dialect first frame).connection with
          outbox := { (refusing dialect first frame).connection.outbox with
            queue := [], remaining := 0, resolved := [(0, .ok ())] } }
        sent := frame
        failure := none } := by
    simp only [step, hopen, Connection.written, hflushed, Bool.false_eq_true, if_false]
    rfl
  intro exchange
  have hexchange : exchange = _ := congrArg (fun written => step written (.check false)) hwritten
  rw [hexchange]
  exact ⟨rfl, rfl, rfl, rfl, rfl⟩

/-! ## What a calm exchange has sent -/

/-- A calm exchange on a sound stream ends with an error only if a decoded message is refused. If it
closes without one, a write was refused for want of room, and all writes that were accepted are
sent and resolved well, whatever the application does in between and whatever pieces the socket
takes. -/
theorem sent_of_closed (dialect : Dialect) (first : ListId) {events : List Event}
    (hcalm : ∀ event ∈ events, event.isCalm = true) {more : Bytes}
    (hstream : (transcript dialect first
      (((start dialect first).run events).arrived ++ more)).error = none) :
    let exchange := (start dialect first).run events
    (∀ error, exchange.failure = some error → error.isRefusal = true) ∧
      (exchange.failure = none → exchange.connection.isClosed = true →
        exchange.connection.outbox.closeAfterFlush = true ∧
          exchange.sent = exchange.accepted.flatten ∧
          ∀ ticket < exchange.accepted.length,
            exchange.connection.outbox.outcome? ticket = some (.ok ())) := by
  have hsound := sound_run hcalm ⟨more, hstream⟩
  intro exchange
  refine ⟨fun error herror => (hsound.failed error herror).2, fun hnone hclosed => ?_⟩
  obtain ⟨finished, front, waiting, hprogress, hopen | ⟨hended, hwell⟩⟩ := hsound.writes
  · cases hopen.closed.symm.trans hclosed
  · obtain ⟨rfl, hafterFlush⟩ := hwell hnone
    have hall : exchange.accepted = finished := by
      rw [show exchange.accepted = finished ++ [] from hprogress.accepted_eq, List.append_nil]
    refine ⟨hafterFlush, ?_, fun ticket hticket => ?_⟩
    · rw [show exchange.sent = finished.flatten ++ front from hprogress.sent_eq,
        hprogress.front_eq_nil rfl, List.append_nil, hall]
    · rw [hall] at hticket
      rw [Outbox.outcome?, hended.resolved, Outbox.lookup_outcomes]
      simp [hticket]

/-- The frame of the largest message waits, so the application's next message is refused; the
socket takes the frame, and the connection ends with all of it sent. -/
theorem sent_of_closed_fullOutbox :
    let dialect : Dialect := ⟨.regtest, Dialect.currentVersion, false⟩
    let exchange := (start dialect ⟨0⟩).run
      [.send (.newUnknown dialect "blob" (List.replicate maxMessageSize 0)),
        .send (.newUnknown dialect "blob" []),
        .write [.accepts (maxMessageSize + Frame.overhead)], .check false]
    exchange.failure = none ∧ exchange.connection.isClosed = true ∧
      exchange.sent = exchange.accepted.flatten ∧
      exchange.sent.length = maxMessageSize + Frame.overhead ∧
      exchange.connection.outbox.outcome? 0 = some (.ok ()) := by
  intro dialect
  -- Only the size of the payload matters from here on.
  have hsize : (List.replicate maxMessageSize (0 : UInt8)).length = maxMessageSize :=
    List.length_replicate
  generalize List.replicate maxMessageSize (0 : UInt8) = payload at hsize ⊢
  have hname : (Text.utf8 "blob").length ≤ Header.nameLength ∧ 0 ∉ Text.utf8 "blob" := by decide
  obtain ⟨frame, after, hframe, hlength⟩ :=
    ofMessage_newUnknown dialect "blob" payload hname (Nat.le_of_eq hsize)
  obtain ⟨small, later, hsmall, hshort⟩ :=
    ofMessage_newUnknown dialect "blob" [] hname (Nat.zero_le _)
  rw [hsize] at hlength
  have hempty : frame ≠ [] := List.ne_nil_of_length_pos (hlength ▸ Nat.succ_pos _)
  obtain ⟨exchange, hrun⟩ : ∃ exchange, (start dialect ⟨0⟩).run
      [.send (.newUnknown dialect "blob" payload), .send (.newUnknown dialect "blob" []),
        .write [.accepts (maxMessageSize + Frame.overhead)], .check false] = exchange := ⟨_, rfl⟩
  have hended := step_refusing dialect ⟨0⟩ hempty (Nat.le_of_eq hlength)
  have hexchange : exchange = ((refusing dialect ⟨0⟩ frame).step
      (.write [.accepts (maxMessageSize + Frame.overhead)])).step (.check false) := by
    rw [← hrun, run_cons, run_cons, run_cons, run_cons, run_nil,
      step_start_send hframe (Nat.le_of_eq hlength),
      step_holding_send hsmall (by rw [hlength, hshort]; decide)]
  rw [← hexchange] at hended
  obtain ⟨hfailure, hclosed, harrived, haccepted, hsent⟩ := hended
  have hcalm : ∀ event ∈ [Event.send (.newUnknown dialect "blob" payload),
      .send (.newUnknown dialect "blob" []),
      .write [.accepts (maxMessageSize + Frame.overhead)], .check false], event.isCalm = true := by
    simp [Event.isCalm]
  have hnothing : transcript dialect ⟨0⟩ [] = .empty := Frame.transcript_of_none rfl
  have hstream : (transcript dialect ⟨0⟩ (exchange.arrived ++ [])).error = none := by
    rw [harrived, List.append_nil, hnothing]
    rfl
  rw [← hrun] at hstream
  obtain ⟨-, hall⟩ := sent_of_closed dialect ⟨0⟩ hcalm hstream
  rw [hrun] at hall
  obtain ⟨-, hflat, houtcome⟩ := hall hfailure hclosed
  rw [hrun]
  refine ⟨hfailure, hclosed, hflat, by rw [hsent, hlength], houtcome 0 ?_⟩
  rw [haccepted]
  exact Nat.zero_lt_one

/-! ## A refused pong -/

variable {dialect : Dialect} {first : ListId} {exchange : Exchange}
  {finished waiting : List Bytes} {sent front : Bytes}

/-- A pong that is refused ends the exchange at once, and whatever waits fails. -/
theorem step_read_refused
    (hprogress : Progress exchange.accepted exchange.sent finished front waiting)
    (hopen : Open exchange.connection.outbox finished front waiting)
    (hidle : exchange.connection.collaborator.pending = none)
    (hbuffered : exchange.connection.buffered = []) {nonce : UInt64} {error : LinkError}
    {next : Outbox} (hwrite : exchange.connection.outbox.write
      (Peer.pongFrame exchange.connection.collaborator.dialect nonce) = (.error error, next)) :
    let ping := Peer.pingFrame exchange.connection.collaborator.dialect nonce
    let after := exchange.step (.read (.bytes ping))
    after.failure = some error ∧ after.arrived = exchange.arrived ++ ping ∧
      Progress after.accepted after.sent finished front waiting ∧
      Ended after.connection.outbox finished waiting := by
  have hreceived : exchange.connection.collaborator.receive (some exchange.connection.outbox)
      (exchange.connection.buffered ++
        Peer.pingFrame exchange.connection.collaborator.dialect nonce) =
        ⟨.error error, { exchange.connection.collaborator with
          nextList := exchange.connection.collaborator.nextList.next }, some next⟩ := by
    rw [hbuffered, List.nil_append]
    exact Peer.receive_pingFrame hidle hwrite
  have hoffer := Connection.offer_of_error hreceived
  have hread : exchange.connection.read
      (.bytes (Peer.pingFrame exchange.connection.collaborator.dialect nonce)) = (.error error,
        (exchange.connection.offer
          (Peer.pingFrame exchange.connection.collaborator.dialect nonce)).2) := by
    simp only [Connection.read, hoffer]
    rfl
  have hclosed : exchange.connection.isClosed = false := hopen.closed
  intro ping after
  have hafter : after = _ := step_read_of_error hclosed hread
  rw [hafter, hoffer]
  refine ⟨rfl, rfl, ?_, ?_⟩
  · obtain ⟨-, rfl⟩ := Outbox.write_refused hwrite
    simpa [Outbox.queuedSince] using hprogress
  · rw [(Connection.close_spec _).1]
    exact (hopen.write_error hwrite).close

/-- A message that leaves no room for a pong is lost if a ping comes before it is sent. -/
theorem lost_of_large (dialect : Dialect) (first : ListId) {message after : Message} {frame : Bytes}
    (hframe : Frame.ofMessage dialect message = (.ok frame, after))
    (hfits : frame.length ≤ maxMessageSize + Frame.overhead)
    (hlarge : maxMessageSize + Frame.overhead < frame.length + 32) (nonce : UInt64) :
    let exchange := (start dialect first).run
      [.send message, .read (.bytes (Peer.pingFrame dialect nonce))]
    exchange.failure =
        some (.outboundOverflow frame.length 32 (maxMessageSize + Frame.overhead)) ∧
      exchange.arrived = Peer.pingFrame dialect nonce ∧
      Progress exchange.accepted exchange.sent [] [] [frame] ∧
      Ended exchange.connection.outbox [] [frame] := by
  obtain ⟨hprogress, hopen⟩ := writes_holding dialect first frame
  have hlength := Peer.length_pongFrame dialect nonce
  have hroom : maxMessageSize + Frame.overhead <
      frame.length + (Peer.pongFrame dialect nonce).length := by rwa [hlength]
  have hpong := write_holding dialect first hroom
  have hrefused := step_read_refused hprogress hopen rfl rfl hpong
  rw [hlength] at hrefused
  have hrun : (start dialect first).run
      [.send message, .read (.bytes (Peer.pingFrame dialect nonce))] =
        (holding dialect first frame).step (.read (.bytes (Peer.pingFrame dialect nonce))) := by
    rw [← step_start_send hframe hfits]
    rfl
  rw [hrun]
  exact hrefused

/-- The frame of the largest message waits when a ping arrives, in which nothing is wrong: the pong
is refused, the connection ends at once, and the message is lost. -/
theorem blob_lost_to_ping :
    let dialect : Dialect := ⟨.regtest, Dialect.currentVersion, false⟩
    let events : List Event :=
      [.send (.newUnknown dialect "blob" (List.replicate maxMessageSize 0)),
        .read (.bytes (Peer.pingFrame dialect 7))]
    let exchange := (start dialect ⟨0⟩).run events
    (∀ event ∈ events, event.isCalm = true) ∧
      (transcript dialect ⟨0⟩ exchange.arrived).error = none ∧
      exchange.failure = some (.outboundOverflow (maxMessageSize + Frame.overhead) 32
        (maxMessageSize + Frame.overhead)) ∧
      exchange.connection.isClosed = true ∧ exchange.accepted.length = 1 ∧ exchange.sent = [] ∧
      exchange.connection.outbox.outcome? 0 = some (.error .closed) := by
  intro dialect
  -- Only the size of the payload matters from here on.
  have hsize : (List.replicate maxMessageSize (0 : UInt8)).length = maxMessageSize :=
    List.length_replicate
  generalize List.replicate maxMessageSize (0 : UInt8) = payload at hsize ⊢
  obtain ⟨frame, after, hframe, hlength⟩ := ofMessage_newUnknown dialect "blob" payload
    (by decide) (Nat.le_of_eq hsize)
  rw [hsize] at hlength
  obtain ⟨hfailure, harrived, hprogress, hended⟩ := lost_of_large dialect ⟨0⟩ hframe
    (Nat.le_of_eq hlength) (by rw [hlength]; decide) 7
  intro events
  obtain ⟨exchange, hrun⟩ : ∃ exchange, (start dialect ⟨0⟩).run events = exchange := ⟨_, rfl⟩
  rw [hrun]
  rw [show (start dialect ⟨0⟩).run _ = exchange from hrun] at hfailure harrived hprogress hended
  have haccepted : exchange.accepted = [frame] := hprogress.accepted_eq
  refine ⟨by simp [events, Event.isCalm], ?_, ?_, hended.closed, ?_, hprogress.sent_eq, ?_⟩
  · rw [harrived]
    exact Peer.transcript_pingFrame dialect ⟨0⟩ 7
  · rw [hfailure, hlength]
  · rw [haccepted]
    rfl
  · rw [Outbox.outcome?, hended.resolved, Outbox.lookup_outcomes]
    rfl

end Exchange

end PeerProtocol
