import PeerProtocol.Connection.Server
import PeerProtocol.Proofs.Connection.Exchange

/-!
# Requests to accepted peers

An application hears of an accepted peer before the peer has its outbox, and may ask for the end of
the connection or send at any moment. The events of a server are interleaved as they like: sockets
arrive, connections are opened, applications act, and open connections take the steps of their
turns. The main statement, `admission`, says that a request that is made once the outbox is
installed lasts, so that the next check ends the connection, and that no message is refused for want
of an outbox from then on; and that whatever is asked of a peer before is lost
(`closeRequest_lost`). What lasts is said once, of every property of outboxes that their operations
preserve (`Lasting`).
-/

namespace PeerProtocol

namespace Outbox

/-- A property of outboxes that every use of an outbox preserves. -/
structure Lasting (holds : Outbox → Prop) : Prop where
  write {outbox : Outbox} (bytes : Bytes) : holds outbox → holds (outbox.write bytes).2
  flush {outbox : Outbox} (attempts : List SocketWrite) :
    holds outbox → holds (outbox.flush attempts).outbox
  requestClose {outbox : Outbox} : holds outbox → holds outbox.requestClose
  close {outbox : Outbox} : holds outbox → holds outbox.close

/-- The connection has ended, or it was asked to. -/
def Ending (outbox : Outbox) : Prop :=
  outbox.closeRequested = true ∨ outbox.closed = true

/-- A write leaves whether the end was asked for and whether it has come. -/
theorem flags_write (outbox : Outbox) (bytes : Bytes) :
    (outbox.write bytes).2.closeRequested = outbox.closeRequested ∧
      (outbox.write bytes).2.closed = outbox.closed := by
  cases hwrite : outbox.write bytes with
  | mk result after =>
  cases result with
  | error error =>
    obtain ⟨-, rfl⟩ := write_refused hwrite
    exact ⟨rfl, rfl⟩
  | ok ticket =>
    obtain ⟨-, -, rfl⟩ := write_accepted hwrite
    exact ⟨rfl, rfl⟩

/-- So does a flush. -/
theorem flags_flush (outbox : Outbox) (attempts : List SocketWrite) :
    (outbox.flush attempts).outbox.closeRequested = outbox.closeRequested ∧
      (outbox.flush attempts).outbox.closed = outbox.closed := by
  obtain ⟨queue, remaining, resolved, -, hframe⟩ := flush_frame outbox attempts
  rw [hframe]
  exact ⟨rfl, rfl⟩

/-- The end lasts. -/
theorem lasting_closed : Lasting fun outbox => outbox.closed = true where
  write bytes h := (flags_write _ bytes).2.trans h
  flush attempts h := (flags_flush _ attempts).2.trans h
  requestClose h := h
  close _ := closed_close _

/-- A request for the end lasts. -/
theorem lasting_ending : Lasting Ending where
  write bytes h := by
    obtain ⟨hrequested, hclosed⟩ := flags_write _ bytes
    rwa [Ending, hrequested, hclosed]
  flush attempts h := by
    obtain ⟨hrequested, hclosed⟩ := flags_flush _ attempts
    rwa [Ending, hrequested, hclosed]
  requestClose _ := .inl rfl
  close _ := .inr (closed_close _)

/-- An outbox lasts. -/
theorem lasting_true : Lasting fun _ => True where
  write _ _ := trivial
  flush _ _ := trivial
  requestClose _ := trivial
  close _ := trivial

end Outbox

open PeerProtocol.Outbox (Lasting Ending)

namespace Connection

/-- The connection of a peer after an event. -/
def after (connection : Connection Peer) (event : Exchange.Event) : Connection Peer :=
  (Exchange.step ⟨connection, [], [], [], [], none⟩ event).connection

/-- The connection of an exchange goes the same way. -/
theorem connection_step (exchange : Exchange) (event : Exchange.Event) :
    (exchange.step event).connection = exchange.connection.after event := by
  cases event with
  | check shutdown =>
    simp only [after, Exchange.step]
    split <;> rfl
  | read read =>
    simp only [after, Exchange.step]
    split <;> rfl
  | write attempts =>
    simp only [after, Exchange.step]
    split <;> rfl
  | _ => rfl

variable {holds : Outbox → Prop} {connection : Connection Peer}

/-- Ending a connection closes its outbox. -/
theorem holds_close (hlasting : Lasting holds) (h : holds connection.outbox) :
    holds connection.close.outbox := by
  rw [connection.close_spec.1]
  exact hlasting.close h

/-- Every event of an exchange leaves what lasts. -/
theorem holds_after (hlasting : Lasting holds) (h : holds connection.outbox)
    (event : Exchange.Event) : holds (connection.after event).outbox := by
  cases event with
  | send message =>
    obtain ⟨outbox, hafter, houtbox⟩ := Exchange.send_outbox connection message
    show holds (connection.send message).2.outbox
    rw [hafter]
    rcases houtbox with rfl | ⟨bytes, rfl⟩
    · exact h
    · exact hlasting.write bytes h
  | take =>
    show holds connection.take.2.outbox
    unfold take
    split <;> exact h
  | requestClose => exact hlasting.requestClose h
  | check shutdown =>
    simp only [after, Exchange.step]
    split
    next => exact holds_close hlasting h
    next => exact h
  | read read =>
    have hread := read_preserves holds (fun _ _ hholds => hlasting.write _ hholds) h read
    simp only [after, Exchange.step]
    split
    next => exact h
    next =>
      simp only
      split
      next => exact hread
      next => exact holds_close hlasting hread
  | write attempts =>
    have hflush := hlasting.flush attempts h
    simp only [after, Exchange.step, written]
    split
    next => exact h
    next =>
      simp only
      split
      next => exact holds_close hlasting hflush
      next => exact hflush

/-- A check ends a connection that is ending. -/
theorem closed_check (h : Ending connection.outbox) (shutdown : Bool) :
    (connection.after (.check shutdown)).outbox.closed = true := by
  simp only [after, Exchange.step]
  split
  next => exact connection.close_spec.2.1
  next hgoesOn =>
    rcases h with hrequested | hclosed
    · simp [mustEnd, hrequested] at hgoesOn
    · exact hclosed

end Connection

namespace AcceptedPeer

/-- An accepted peer after its application acted or its connection took a step. Nothing drives a
peer that is only announced. -/
def step : AcceptedPeer → Exchange.Event → AcceptedPeer
  | peer, .requestClose => peer.requestClose
  | peer, .send message => (peer.send message).2
  | announced peer, _ => announced peer
  | connected connection, event => connected (connection.after event)

/-- Whatever is asked of an announced peer leaves it as it was. -/
theorem step_announced (peer : Peer) (event : Exchange.Event) :
    (announced peer).step event = announced peer := by
  cases event <;> rfl

/-- A connected peer is its connection. -/
theorem step_connected (connection : Connection Peer) (event : Exchange.Event) :
    (connected connection).step event = connected (connection.after event) := by
  cases event <;> rfl

/-- A message is refused for want of an outbox exactly as long as a peer is only announced. -/
theorem send_notRunning_iff (peer : AcceptedPeer) (message : Message) :
    (peer.send message).1 = .error .notRunning ↔ ∃ waiting, peer = announced waiting := by
  cases peer with
  | announced peer => exact ⟨fun _ => ⟨peer, rfl⟩, fun _ => rfl⟩
  | connected connection =>
    refine ⟨fun h => ?_, fun ⟨_, h⟩ => nomatch h⟩
    simp only [send, Peer.send] at h
    cases hframe : Frame.ofMessage connection.collaborator.dialect message with
    | mk framed after =>
    rw [hframe] at h
    cases framed with
    | error error => cases h
    | ok frame =>
      have hwrite : connection.outbox.write frame =
          (.error .notRunning, (connection.outbox.write frame).2) := Prod.ext h rfl
      rcases (Outbox.write_refused hwrite).1 with hclosed | hover
      · cases hclosed
      · cases hover

end AcceptedPeer

namespace Server

/-- What happens at a server. -/
inductive Event where
  | arrive (socket : SocketAddress) (firstList : ListId)
  /-- The connection of the peer at a position is opened. -/
  | opens (index : Nat)
  /-- The application of the peer at a position acts, or its connection takes a step. -/
  | peer (index : Nat) (event : Exchange.Event)
  /-- The application stops listening for announcements. -/
  | dropReceiver
  | shutdown

/-- The server after an event. -/
def step (server : Server) : Event → Server
  | .arrive socket firstList => server.arrive socket firstList
  | .opens index => server.openAt index
  | .peer index event =>
      { server with accepted := server.accepted.modify index (·.step event) }
  | .dropReceiver => { server with factory := server.factory.dropReceiver }
  | .shutdown => server.shutdown

/-- The server after events in order. -/
def run (server : Server) (events : List Event) : Server :=
  events.foldl step server

/-- Events happen one after the other. -/
theorem run_append (server : Server) (before after : List Event) :
    server.run (before ++ after) = (server.run before).run after :=
  List.foldl_append

/-- The first event is the first step. -/
theorem run_cons (server : Server) (event : Event) (events : List Event) :
    server.run (event :: events) = (server.step event).run events := rfl

/-- The peer at a position has an outbox, of which this holds. -/
def Drives (server : Server) (index : Nat) (holds : Outbox → Prop) : Prop :=
  ∃ connection, server.accepted[index]? = some (.connected connection) ∧ holds connection.outbox

variable {server : Server} {index : Nat} {holds : Outbox → Prop}

/-- An arriving socket leaves the peers that were accepted before. -/
theorem getElem?_arrive {peer : AcceptedPeer} (h : server.accepted[index]? = some peer)
    (socket : SocketAddress) (firstList : ListId) :
    (server.arrive socket firstList).accepted[index]? = some peer := by
  unfold arrive
  split
  next =>
    split
    next =>
      obtain ⟨hlt, -⟩ := List.getElem?_eq_some_iff.1 h
      exact (List.getElem?_append_left hlt).trans h
    next => exact h
  next => exact h

/-- What lasts is kept by every event of a server. -/
theorem Drives.step (hlasting : Lasting holds) (h : server.Drives index holds) (event : Event) :
    (server.step event).Drives index holds := by
  obtain ⟨connection, hindex, hholds⟩ := h
  cases event with
  | arrive socket firstList => exact ⟨connection, getElem?_arrive hindex socket firstList, hholds⟩
  | opens other =>
    refine ⟨connection, ?_, hholds⟩
    simp only [Server.step, openAt, List.getElem?_modify, hindex]
    split <;> rfl
  | peer other event =>
    by_cases hother : other = index
    · refine ⟨connection.after event, ?_, Connection.holds_after hlasting hholds event⟩
      simp [Server.step, hother, hindex, AcceptedPeer.step_connected]
    · refine ⟨connection, ?_, hholds⟩
      simp [Server.step, hother, hindex]
  | dropReceiver => exact ⟨connection, hindex, hholds⟩
  | shutdown =>
    refine ⟨connection.close, ?_, Connection.holds_close hlasting hholds⟩
    simp [Server.step, Server.shutdown, hindex, AcceptedPeer.close, AcceptedPeer.open]

/-- What lasts is kept by every run of a server. -/
theorem Drives.run (hlasting : Lasting holds) (h : server.Drives index holds)
    (events : List Event) : (server.run events).Drives index holds := by
  induction events generalizing server with
  | nil => exact h
  | cons event events ih => exact ih (h.step hlasting event)

/-! ## Before and after a connection is opened -/

/-- A socket that arrives is announced behind those before it, as long as the server runs and the
application listens. -/
theorem getElem?_arrive_self (hrunning : server.running = true)
    (hlistening : server.factory.listening = true) (socket : SocketAddress) (firstList : ListId) :
    (server.arrive socket firstList).accepted[server.accepted.length]? =
      some (.announced (Peer.new server.factory.dialect firstList)) := by
  simp only [arrive, hrunning, PeerFactory.accept?, hlistening, if_true]
  exact List.getElem?_concat_length

/-- An announced peer is announced until it is opened or the server shuts down. -/
theorem getElem?_run_of_announced {waiting : Peer} {events : List Event}
    (h : server.accepted[index]? = some (.announced waiting)) (hopens : .opens index ∉ events)
    (hshutdown : .shutdown ∉ events) :
    (server.run events).accepted[index]? = some (.announced waiting) := by
  induction events generalizing server with
  | nil => exact h
  | cons event events ih =>
    obtain ⟨hopensFirst, hopensRest⟩ := not_or.1 (mt List.mem_cons.2 hopens)
    obtain ⟨hshutdownFirst, hshutdownRest⟩ := not_or.1 (mt List.mem_cons.2 hshutdown)
    refine ih ?_ hopensRest hshutdownRest
    cases event with
    | arrive socket firstList => exact getElem?_arrive h socket firstList
    | opens other =>
      have hother : other ≠ index := fun heq => hopensFirst (heq ▸ rfl)
      simp [step, openAt, hother, h]
    | peer other event =>
      by_cases hother : other = index
      · simp [step, hother, h, AcceptedPeer.step_announced]
      · simp [step, hother, h]
    | dropReceiver => exact h
    | shutdown => exact absurd rfl hshutdownFirst

/-- Whatever is asked of an announced peer leaves the server as it was. -/
theorem step_peer_of_announced {waiting : Peer}
    (h : server.accepted[index]? = some (.announced waiting)) (event : Exchange.Event) :
    server.step (.peer index event) = server := by
  have hsame : server.accepted.modify index (·.step event) = server.accepted := by
    apply List.ext_getElem?
    intro other
    rw [List.getElem?_modify]
    by_cases hother : index = other
    · subst hother
      simp [h, AcceptedPeer.step_announced]
    · simp [hother]
  rw [step, hsame]

/-- An accepted peer that is opened has an outbox. -/
theorem drives_opens {peer : AcceptedPeer} (h : server.accepted[index]? = some peer) :
    (server.step (.opens index)).Drives index fun _ => True := by
  have hopened : (server.step (.opens index)).accepted[index]? = some peer.open := by
    simp [step, openAt, h]
  cases peer with
  | announced peer => exact ⟨Connection.start peer, hopened, trivial⟩
  | connected connection => exact ⟨connection, hopened, trivial⟩

/-- An event of a connected peer is one of its connection. -/
theorem Drives.peer (h : server.Drives index holds) {event : Exchange.Event}
    {becomes : Outbox → Prop} (hbecomes : ∀ connection : Connection Peer,
      holds connection.outbox → becomes (connection.after event).outbox) :
    (server.step (.peer index event)).Drives index becomes := by
  obtain ⟨connection, hindex, hholds⟩ := h
  refine ⟨connection.after event, ?_, hbecomes connection hholds⟩
  simp [Server.step, hindex, AcceptedPeer.step_connected]

/-- What becomes of the requests to the peer at a position, between what happens before and what
happens after them. -/
structure Admission (factory : PeerFactory) (index : Nat) (before after : List Event) : Prop where
  /-- A socket that arrives at a running server is announced, if the application listens. -/
  arrived (socket : SocketAddress) (firstList : ListId) :
    ((new factory).run before).running = true →
    ((new factory).run before).factory.listening = true →
    ((new factory).run (before ++ [.arrive socket firstList])).accepted[
        ((new factory).run before).accepted.length]? =
      some (.announced (Peer.new ((new factory).run before).factory.dialect firstList))
  /-- An accepted peer has its outbox from the moment on at which it is opened. -/
  opened {peer : AcceptedPeer} : ((new factory).run before).accepted[index]? = some peer →
    ((new factory).run (before ++ .opens index :: after)).Drives index fun _ => True
  /-- A request for the end that is made to a peer with an outbox lasts. -/
  requested : (((new factory).run before).Drives index fun _ => True) →
    ((new factory).run (before ++ .peer index .requestClose :: after)).Drives index Ending
  /-- So the next check ends the connection, for good. -/
  ended (shutdown : Bool) (later : List Event) :
    (((new factory).run before).Drives index fun _ => True) →
    ((new factory).run (before ++ .peer index .requestClose :: after ++
      .peer index (.check shutdown) :: later)).Drives index fun outbox => outbox.closed = true
  /-- A message is refused for want of an outbox exactly as long as the peer is only announced. -/
  sent {peer : AcceptedPeer} : ((new factory).run before).accepted[index]? = some peer →
    ∀ message, (peer.send message).1 = .error .notRunning ↔ ∃ waiting, peer = .announced waiting
  /-- That is until the peer is opened. -/
  announced {waiting : Peer} :
    ((new factory).run before).accepted[index]? = some (.announced waiting) →
    .opens index ∉ after → .shutdown ∉ after →
    ((new factory).run (before ++ after)).accepted[index]? = some (.announced waiting)
  /-- Whatever is asked of a peer before is lost: everything goes on as if it had not been. -/
  lost {waiting : Peer} (event : Exchange.Event) :
    ((new factory).run before).accepted[index]? = some (.announced waiting) →
    (new factory).run (before ++ .peer index event :: after) =
      (new factory).run (before ++ after)

/-- Requests to accepted peers last from the moment on at which the peer is opened, and are lost
before. -/
theorem admission (factory : PeerFactory) (index : Nat) (before after : List Event) :
    Admission factory index before after where
  arrived socket firstList hrunning hlistening := by
    rw [run_append]
    exact getElem?_arrive_self hrunning hlistening socket firstList
  opened h := by
    rw [run_append, run_cons]
    exact (drives_opens h).run Outbox.lasting_true after
  requested h := by
    rw [run_append, run_cons]
    exact (h.peer fun _ _ => .inl rfl).run Outbox.lasting_ending after
  ended shutdown later h := by
    have hrequested : (((new factory).run before).step (.peer index .requestClose)).Drives index
        Ending := h.peer fun _ _ => .inl rfl
    have hclosed : ((((new factory).run before).step (.peer index .requestClose)).run after |>.step
        (.peer index (.check shutdown))).Drives index fun outbox => outbox.closed = true :=
      (hrequested.run Outbox.lasting_ending after).peer fun _ hending =>
        Connection.closed_check hending shutdown
    rw [run_append, run_append, run_cons, run_cons]
    exact hclosed.run Outbox.lasting_closed later
  sent _ message := AcceptedPeer.send_notRunning_iff _ message
  announced h hopens hshutdown := by
    rw [run_append]
    exact getElem?_run_of_announced h hopens hshutdown
  lost event h := by
    rw [run_append, run_append, run_cons, step_peer_of_announced h]

/-- A request behind the opening ends the connection at the next check. -/
example (factory : PeerFactory) (socket : SocketAddress) (h : factory.listening = true) :
    ((new factory).run [.arrive socket ⟨0⟩, .opens 0, .peer 0 .requestClose,
      .peer 0 (.check false)]).Drives 0 fun outbox => outbox.closed = true := by
  obtain ⟨dialect, listening⟩ := factory
  obtain rfl : listening = true := h
  exact ⟨_, rfl, rfl⟩

/-- The application asks for the end as soon as it hears of a peer, and sends. The message is
refused for want of an outbox, and the connection that is then opened goes on past its check: it has
neither ended nor been asked to. -/
theorem closeRequest_lost :
    let factory := PeerFactory.new ⟨.regtest, Dialect.currentVersion, false⟩
    let socket : SocketAddress := ⟨.v4 ⟨[127, 0, 0, 1], rfl⟩, 18444⟩
    (∃ peer, ((new factory).run [.arrive socket ⟨0⟩]).accepted[0]? = some peer ∧
      ∀ message, (peer.send message).1 = .error .notRunning) ∧
    ((new factory).run [.arrive socket ⟨0⟩, .peer 0 .requestClose, .opens 0,
      .peer 0 (.check false)]).Drives 0 fun outbox => ¬ Ending outbox := by
  intro factory socket
  refine ⟨⟨_, rfl, fun message => rfl⟩, ⟨_, rfl, ?_⟩⟩
  rintro (hrequested | hclosed)
  · cases hrequested
  · cases hclosed

end Server

end PeerProtocol
