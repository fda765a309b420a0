import PeerProtocol.Connection.Puppet

/-!
# Managers of outbound connections

A manager takes requests to connect while it runs, and a reactor carries them out: it takes up a
request, a task of its own waits for the connect attempt and drives the connection until it ends. A
shutdown signals the reactor of the run, which stops taking up requests, waits for its tasks, fails
the requests that it has not taken up, and is over; only then the shutdown returns. Requests, tasks
and reactors proceed in any order in which they can, and a manager may be started again at any time,
so that several runs may be under way. All of them share the registry of open connections.
-/

namespace PeerProtocol

/-! ## Links -/

/-- How far a requested connection has come. -/
inductive LinkState where
  /-- Handed over and not yet taken up. -/
  | queued (puppet : Puppet)
  /-- The connect attempt is on its way. -/
  | connecting (puppet : Puppet)
  /-- Open. -/
  | live (connection : Connection Puppet)
  /-- Over. -/
  | finished (puppet : Puppet)

/-- How a connect attempt turns out. A collaborator may use its outbox as soon as its connection is
opened. -/
inductive ConnectOutcome where
  | connected (uses : List Outbox.Use)
  | refused
  | timedOut
deriving DecidableEq, Repr

namespace LinkState

/-- The collaborator of the connection. -/
def puppet : LinkState → Puppet
  | queued puppet | connecting puppet | finished puppet => puppet
  | live connection => connection.collaborator

/-- Whether the request has not been taken up. -/
def isQueued : LinkState → Bool
  | queued _ => true
  | _ => false

/-- Whether a task connects or drives the connection. -/
def isTask : LinkState → Bool
  | connecting _ | live _ => true
  | _ => false

/-- Whether the connection is open. -/
def isLive : LinkState → Bool
  | live _ => true
  | _ => false

/-- The connection was never open: its collaborator hears that it has ended, and the request
fails. -/
def failed (puppet : Puppet) (error : LinkError) : LinkState :=
  finished ((Collaborator.ended puppet).note (.resolved (.error error)))

/-- The connection is opened, and then the request succeeds. -/
def opened (puppet : Puppet) (uses : List Outbox.Use) : LinkState :=
  let connection := Connection.start (puppet.told ⟨uses, .ok 0⟩)
  live { connection with collaborator := connection.collaborator.note (.resolved (.ok ())) }

/-- The request is taken up. -/
def takeUp? : LinkState → Option LinkState
  | queued puppet => some (connecting puppet)
  | _ => none

/-- The connect attempt comes to its end. -/
def connect? (outcome : ConnectOutcome) : LinkState → Option LinkState
  | connecting puppet =>
    match outcome with
    | .connected uses => some (opened puppet uses)
    | .refused => some (failed puppet .connectFailed)
    | .timedOut => some (failed puppet .connectTimeout)
  | _ => none

/-- The connect attempt is given up. -/
def abandon? : LinkState → Option LinkState
  | connecting puppet => some (failed puppet .notRunning)
  | _ => none

/-- A request that was never taken up fails. -/
def drain? : LinkState → Option LinkState
  | queued puppet => some (failed puppet .notRunning)
  | _ => none

/-- The connection takes a turn, in which its collaborator reacts as it is told. -/
def turn? (shutdown : Bool) (reaction : Reaction) (read : Connection.SocketRead)
    (writes : Option (List Outbox.SocketWrite)) : LinkState → Option LinkState
  | live connection =>
    let told := { connection with collaborator := connection.collaborator.told reaction }
    let after := (told.turn shutdown read writes).1
    some (if after.isClosed then finished after.collaborator else live after)
  | _ => none

/-- The outbox of an open connection is used. -/
def use (use : Outbox.Use) : LinkState → LinkState
  | live connection => live { connection with outbox := connection.outbox.use use }
  | state => state

end LinkState

/-- A requested connection: the run that took the request, if one did, and how far it has come. -/
structure Link where
  run : Option Nat
  state : LinkState

namespace Link

/-- What has been noticed of the connection, in order. -/
def history (link : Link) : List Notice :=
  link.state.puppet.history

/-- The callbacks that the collaborator received, in order. -/
def callbacks (link : Link) : List Callback :=
  link.history.filterMap Notice.callback?

/-- How the request turned out: the results with which its completion was resolved, in order. -/
def results (link : Link) : List (Except LinkError Unit) :=
  link.history.filterMap Notice.result?

end Link

/-! ## Runs -/

/-- How far the reactor of a run has come. -/
inductive Stage where
  /-- It takes up requests. -/
  | serving
  /-- It waits for its tasks. -/
  | joining
  /-- It receives no more requests and fails those that it has not taken up. -/
  | draining
  /-- Its thread has come to its end. -/
  | stopped
deriving DecidableEq, Repr

/-- A run: whether it has been signalled to stop, and how far its reactor has come. -/
structure Run where
  signalled : Bool
  stage : Stage
deriving DecidableEq, Repr

namespace Run

/-- Whether a request can still be handed over. -/
def isReceiving (run : Run) : Bool :=
  run.stage = .serving || run.stage = .joining

end Run

/-! ## Managers -/

/-- The links of a manager in the order of their requests, the positions of those that are
registered as open, the runs begun so far, the run that takes requests, if one does, and the runs
whose shutdown has not yet returned. -/
structure Manager where
  links : List Link
  registry : List Nat
  runs : List Run
  current : Option Nat
  waiting : List Nat

namespace Manager

/-- A manager that has never run. -/
def new : Manager := ⟨[], [], [], none, []⟩

/-- Begins a run. A running manager goes on. -/
def start (manager : Manager) : Manager :=
  match manager.current with
  | some _ => manager
  | none => { manager with
      runs := manager.runs ++ [⟨false, .serving⟩]
      current := some manager.runs.length }

/-- What becomes of a request: without a run it fails at once, without a callback. -/
def requested (manager : Manager) (puppet : Puppet) : LinkState :=
  match manager.current with
  | none => .finished (puppet.note (.resolved (.error .notRunning)))
  | some number =>
    if (manager.runs[number]?).any Run.isReceiving then .queued puppet
    else .failed puppet .notRunning

/-- Hands over a request and answers with its position among the links. -/
def request (manager : Manager) (maxMessageSize : Nat) : Nat × Manager :=
  let link := ⟨manager.current, manager.requested (.new maxMessageSize)⟩
  (manager.links.length, { manager with links := manager.links ++ [link] })

/-- Uses the outbox of a connection, if it is open. -/
def use (manager : Manager) (index : Nat) (use : Outbox.Use) : Manager :=
  { manager with
    links := manager.links.modify index fun link => { link with state := link.state.use use } }

/-- Asks connections to close. -/
def askToClose (manager : Manager) (chosen : List Nat) : Manager :=
  chosen.foldl (fun manager index => manager.use index .requestClose) manager

/-- Signals the current run to stop; requests are no longer taken, and the shutdown waits. -/
def signal (manager : Manager) : Manager :=
  match manager.current with
  | none => manager
  | some number => { manager with
      runs := manager.runs.modify number fun run => { run with signalled := true }
      current := none
      waiting := manager.waiting ++ [number] }

/-- A step of the reactor of one run. -/
def stepRun? (manager : Manager) (number : Nat) (step? : Run → Option Stage) :
    Option Manager := do
  let run ← manager.runs[number]?
  let stage ← step? run
  some { manager with runs := manager.runs.set number { run with stage := stage } }

/-- The registry after a link has gone from one state to another: a connection is registered when it
is opened, and no longer when it has ended. -/
def registryAfter (registry : List Nat) (index : Nat) (before after : LinkState) : List Nat :=
  match before.isLive, after.isLive with
  | false, true => registry ++ [index]
  | true, false => registry.erase index
  | _, _ => registry

/-- A step of one link, given the run that it belongs to. -/
def stepLink? (manager : Manager) (index : Nat) (step? : Run → LinkState → Option LinkState) :
    Option Manager := do
  let link ← manager.links[index]?
  let number ← link.run
  let run ← manager.runs[number]?
  let state ← step? run link.state
  some { manager with
    links := manager.links.set index { link with state := state }
    registry := registryAfter manager.registry index link.state state }

/-- Whether a link of a run is in such a state. -/
def hasLink (manager : Manager) (number : Nat) (isSuch : LinkState → Bool) : Bool :=
  manager.links.any fun link => link.run = some number && isSuch link.state

/-- What can happen to a manager. -/
inductive Event where
  | start
  | request (maxMessageSize : Nat)
  /-- Registered connections are asked to close. -/
  | closeConnections (chosen : List Nat)
  /-- The outbox of a connection is used from outside a callback. -/
  | use (index : Nat) (use : Outbox.Use)
  /-- A shutdown is called. -/
  | shutdown
  /-- The shutdown of a run returns. -/
  | returns (number : Nat)
  /-- The reactor sees the signal. -/
  | leave (number : Nat)
  /-- The last task of the reactor has come to its end. -/
  | joined (number : Nat)
  /-- No request is left. -/
  | stop (number : Nat)
  | takeUp (index : Nat)
  | connect (index : Nat) (outcome : ConnectOutcome)
  /-- The task sees the signal before the connect attempt comes to its end. -/
  | abandon (index : Nat)
  | drain (index : Nat)
  /-- An open connection takes a turn; if the run has been signalled it may see so. -/
  | turn (index : Nat) (shutdown : Bool) (reaction : Reaction) (read : Connection.SocketRead)
      (writes : Option (List Outbox.SocketWrite))

/-- The manager after an event, if the event is possible. -/
def step? (manager : Manager) : Event → Option Manager
  | .start => some manager.start
  | .request maxMessageSize => some (manager.request maxMessageSize).2
  | .closeConnections chosen =>
      if chosen.all manager.registry.contains then some (manager.askToClose chosen) else none
  | .use index use => some (manager.use index use)
  | .shutdown => some manager.signal
  | .returns number =>
      if manager.waiting.contains number && (manager.runs[number]?).any (·.stage = .stopped) then
        some { manager with waiting := manager.waiting.erase number }
      else none
  | .leave number =>
      manager.stepRun? number fun run =>
        if run.stage = .serving ∧ run.signalled then some .joining else none
  | .joined number =>
      manager.stepRun? number fun run =>
        if run.stage = .joining ∧ !manager.hasLink number LinkState.isTask then some .draining
        else none
  | .stop number =>
      manager.stepRun? number fun run =>
        if run.stage = .draining ∧ !manager.hasLink number LinkState.isQueued then some .stopped
        else none
  | .takeUp index =>
      manager.stepLink? index fun run state =>
        if run.stage = .serving then state.takeUp? else none
  | .connect index outcome => manager.stepLink? index fun _ state => state.connect? outcome
  | .abandon index =>
      manager.stepLink? index fun run state => if run.signalled then state.abandon? else none
  | .drain index =>
      manager.stepLink? index fun run state =>
        if run.stage = .draining then state.drain? else none
  | .turn index shutdown reaction read writes =>
      manager.stepLink? index fun run state =>
        if shutdown = true → run.signalled = true then state.turn? shutdown reaction read writes
        else none

/-- The manager after a sequence of events that are all possible. -/
def run? (manager : Manager) : List Event → Option Manager
  | [] => some manager
  | event :: events => do
      let manager ← manager.step? event
      manager.run? events

/-- The number of connections that are registered as open. -/
def connectedCount (manager : Manager) : Nat :=
  manager.registry.length

/-- How a request turned out, if that is known. -/
def completion? (manager : Manager) (index : Nat) : Option (Except LinkError Unit) := do
  let link ← manager.links[index]?
  link.results.head?

/-- The callbacks that the collaborator of a request received. -/
def callbacks (manager : Manager) (index : Nat) : List Callback :=
  ((manager.links[index]?).map Link.callbacks).getD []

/-! ## Schedules -/

/-- The manager after those of some events that are possible, in turn. -/
def attempt (manager : Manager) (events : List Event) : Manager :=
  events.foldl (fun manager event => (manager.step? event).getD manager) manager

/-- The connection at a position takes a turn in which nothing is read or written. -/
def Event.idleTurn (shutdown : Bool) (index : Nat) : Event :=
  .turn index shutdown ⟨[], .ok 0⟩ .nothing none

/-- Hands over a request, for a collaborator that expects empty messages, and carries it out up to
the end of the connect attempt; answers with the position of the request. -/
def openConnection (manager : Manager) (outcome : ConnectOutcome) : Nat × Manager :=
  let (index, manager) := manager.request 0
  (index, manager.attempt [.takeUp index, .connect index outcome])

/-- Asks up to `count` open connections to close. -/
def closeConnections (manager : Manager) (count : Nat) : Manager :=
  manager.attempt [.closeConnections (manager.registry.take count)]

/-- Every connection takes a turn, which ends those that have been asked to close. -/
def settle (manager : Manager) : Manager :=
  manager.attempt ((List.range manager.links.length).map (.idleTurn false))

/-- What the reactor of a run that has been signalled still does, up to the return of the
shutdown. -/
def windUp (manager : Manager) (number : Nat) : List Event :=
  let indices := List.range manager.links.length
  [.leave number] ++ indices.map .abandon ++ indices.map (.idleTurn true) ++ [.joined number] ++
    indices.map .drain ++ [.stop number] ++ [.returns number]

/-- Calls a shutdown, lets the reactor wind up the run, and returns. -/
def shutdown (manager : Manager) : Manager :=
  match manager.current with
  | none => manager
  | some number => manager.attempt (.shutdown :: manager.windUp number)

end Manager

end PeerProtocol
