import Mathlib.Logic.Function.Iterate
import PeerProtocol.Proofs.Peer.Steps

/-!
# Receptions

A reception is a peer with a write target between the engine, which offers it the bytes of a stream,
and the application, which takes messages. The peer's steps are events of their own, so that the
application may take messages between any two of them, and whoever else uses the write target may
do so as well. Left alone, the steps do what offering the bytes does (`ends_receive`). An error
closes the connection, so it ends the reception, with the message in hand if there is one.
-/

namespace PeerProtocol

/-- A write target with the frames that it was written: those it took and those it refused. -/
structure Logged (σ : Type) where
  inner : σ
  accepted : List Bytes
  refused : List (Bytes × LinkError)

namespace Logged

variable {σ : Type}

/-- The target after it took a frame. -/
def accept (logged : Logged σ) (next : σ) (frame : Bytes) : Logged σ :=
  { logged with inner := next, accepted := logged.accepted ++ [frame] }

/-- The target after it refused a frame. -/
def refuse (logged : Logged σ) (next : σ) (frame : Bytes) (error : LinkError) : Logged σ :=
  { logged with inner := next, refused := logged.refused ++ [(frame, error)] }

instance [WriteTarget σ] : WriteTarget (Logged σ) where
  write logged frame :=
    match WriteTarget.write logged.inner frame with
    | (.ok ticket, next) => (.ok ticket, logged.accept next frame)
    | (.error error, next) => (.error error, logged.refuse next frame error)
  requestClose logged := { logged with inner := WriteTarget.requestClose logged.inner }

variable [WriteTarget σ]

/-- A frame that the target takes is noted. -/
theorem write_of_ok {logged : Logged σ} {frame : Bytes} {ticket : Nat} {next : σ}
    (h : WriteTarget.write logged.inner frame = (.ok ticket, next)) :
    WriteTarget.write logged frame = (.ok ticket, logged.accept next frame) := by
  simp only [WriteTarget.write, h]

/-- A frame that the target refuses is noted. -/
theorem write_of_error {logged : Logged σ} {frame : Bytes} {error : LinkError} {next : σ}
    (h : WriteTarget.write logged.inner frame = (.error error, next)) :
    WriteTarget.write logged frame = (.error error, logged.refuse next frame error) := by
  simp only [WriteTarget.write, h]

end Logged

namespace Reception

/-- What a peer is doing with the bytes that it is offered. -/
inductive Phase where
  /-- Waiting for bytes that follow these. -/
  | waiting (leftover : Bytes)
  /-- Looking for the next frame in these bytes. -/
  | looking (bytes : Bytes)
  /-- Answering a decoded message, with these bytes behind its frame. -/
  | answering (message : Message) (rest : Bytes)
  /-- Queuing an answered message, with these bytes behind its frame. -/
  | queuing (message : Message) (rest : Bytes)
  /-- Ended by a broken frame. -/
  | broken (error : CodecError)
  /-- Ended because the answer to a message was refused. -/
  | unanswered (message : Message) (error : LinkError)
  /-- Ended because a message was not queued. -/
  | unqueued (message : Message) (error : LinkError)

namespace Phase

/-- The message in hand, which is decoded and not queued. -/
def inHand : Phase → List Message
  | answering message _ | queuing message _ => [message]
  | unanswered message _ | unqueued message _ => [message]
  | waiting _ | looking _ | broken _ => []

/-- The message in hand, if it has been answered. -/
def answered : Phase → List Message
  | queuing message _ | unqueued message _ => [message]
  | waiting _ | looking _ | answering .. | broken _ | unanswered .. => []

/-- What the offer comes to, once it does. -/
def result? : Phase → Option (Except LinkError Bytes)
  | waiting leftover => some (.ok leftover)
  | broken error => some (.error (.codec error))
  | unanswered _ error | unqueued _ error => some (.error error)
  | looking _ | answering .. | queuing .. => none

end Phase

end Reception

/-- A peer that is offered bytes, its write target, the messages that the application has taken, and
the bytes of the stream that have arrived. -/
structure Reception (σ : Type) where
  peer : Peer
  target : Logged σ
  phase : Reception.Phase
  taken : List Message
  arrived : Bytes

namespace Reception

variable {σ : Type}

/-- What happens in a reception. -/
inductive Event (σ : Type) where
  /-- A chunk of the stream arrives. -/
  | chunk (bytes : Bytes)
  /-- The peer does its next step. -/
  | work
  /-- The application asks for the oldest message. -/
  | take
  /-- Others leave the target in this state. -/
  | meanwhile (inner : σ)

/-- A reception in which nothing has happened. -/
def start (dialect : Dialect) (firstList : ListId) (target : σ) : Reception σ :=
  ⟨Peer.new dialect firstList, ⟨target, [], []⟩, .waiting [], [], []⟩

/-- The messages that were queued for the application, those included that it has taken. -/
def queued (reception : Reception σ) : List Message :=
  reception.taken ++ reception.peer.inbox

/-- The messages that were decoded: those that were queued and the one in hand. -/
def decoded (reception : Reception σ) : List Message :=
  reception.queued ++ reception.phase.inHand

/-- Offers the leftover and a chunk to a peer that waits for it. -/
def offer (reception : Reception σ) (bytes : Bytes) : Reception σ :=
  match reception.phase with
  | .waiting leftover =>
    { reception with
      phase := .looking (leftover ++ bytes), arrived := reception.arrived ++ bytes }
  | _ => reception

/-- Hands the oldest message to the application, if one is waiting. -/
def take (reception : Reception σ) : Reception σ :=
  match reception.peer.take? with
  | none => reception
  | some (message, peer) => { reception with peer := peer, taken := reception.taken ++ [message] }

variable [WriteTarget σ]

/-- The peer's next step, if there is one. -/
def work (reception : Reception σ) : Reception σ :=
  match reception.phase with
  | .looking bytes =>
    match reception.peer.look bytes with
    | .waits next rest => { reception with peer := next, phase := .waiting rest }
    | .breaks next error => { reception with peer := next, phase := .broken error }
    | .decodes message next rest =>
      { reception with peer := next, phase := .answering message rest }
  | .answering message rest =>
    let (result, slot) := reception.peer.answer (some reception.target) message
    let target := slot.getD reception.target
    match result with
    | .error error => { reception with target := target, phase := .unanswered message error }
    | .ok () => { reception with target := target, phase := .queuing message rest }
  | .queuing message rest =>
    let (result, peer) := reception.peer.deliver message
    match result with
    | .error error => { reception with peer := peer, phase := .unqueued message error }
    | .ok () => { reception with peer := peer, phase := .looking rest }
  | .waiting _ | .broken _ | .unanswered .. | .unqueued .. => reception

/-- The reception after an event. -/
def step (reception : Reception σ) : Event σ → Reception σ
  | .chunk bytes => reception.offer bytes
  | .work => reception.work
  | .take => reception.take
  | .meanwhile inner => { reception with target := { reception.target with inner := inner } }

/-- The reception after events in order. -/
def run (reception : Reception σ) (events : List (Event σ)) : Reception σ :=
  events.foldl step reception

/-! ## Offers -/

variable {reception : Reception σ} {message : Message} {rest : Bytes}

/-- A message that is found is answered next. -/
theorem work_of_decodes {bytes : Bytes} (hphase : reception.phase = .looking bytes) {next : Peer}
    (hlook : reception.peer.look bytes = .decodes message next rest) :
    reception.work = { reception with peer := next, phase := .answering message rest } := by
  simp only [work, hphase, hlook]

/-- A message that asks for nothing is answered with nothing. -/
theorem work_of_unasked (hphase : reception.phase = .answering message rest)
    (hasked : message.asked? = none) :
    reception.work = { reception with phase := .queuing message rest } := by
  simp only [work, hphase, Peer.answer_some, hasked, Option.getD_some]

/-- A message that asks for a pong is answered before it is queued. -/
theorem work_of_accepted (hphase : reception.phase = .answering message rest) {nonce : UInt64}
    (hasked : message.asked? = some nonce) {ticket : Nat} {next : σ}
    (hwrite : WriteTarget.write reception.target.inner
      (Peer.pongFrame reception.peer.dialect nonce) = (.ok ticket, next)) :
    reception.work =
      { reception with
        target := reception.target.accept next (Peer.pongFrame reception.peer.dialect nonce)
        phase := .queuing message rest } := by
  simp only [work, hphase, Peer.answer_some, hasked, Logged.write_of_ok hwrite, Except.map,
    Option.getD_some]

/-- A message whose answer is refused ends the reception. -/
theorem work_of_refused (hphase : reception.phase = .answering message rest) {nonce : UInt64}
    (hasked : message.asked? = some nonce) {error : LinkError} {next : σ}
    (hwrite : WriteTarget.write reception.target.inner
      (Peer.pongFrame reception.peer.dialect nonce) = (.error error, next)) :
    reception.work =
      { reception with
        target := reception.target.refuse next (Peer.pongFrame reception.peer.dialect nonce) error
        phase := .unanswered message error } := by
  simp only [work, hphase, Peer.answer_some, hasked, Logged.write_of_error hwrite, Except.map,
    Option.getD_some]

/-- A message that is queued is followed by a look for the next. -/
theorem work_of_queued (hphase : reception.phase = .queuing message rest) {next : Peer}
    (hdeliver : reception.peer.deliver message = (.ok (), next)) :
    reception.work = { reception with peer := next, phase := .looking rest } := by
  simp only [work, hphase, hdeliver]

/-- A message that is not queued ends the reception. -/
theorem work_of_unqueued (hphase : reception.phase = .queuing message rest) {next : Peer}
    {error : LinkError} (hdeliver : reception.peer.deliver message = (.error error, next)) :
    reception.work = { reception with peer := next, phase := .unqueued message error } := by
  simp only [work, hphase, hdeliver]

/-- What has come to a result stays there until a chunk arrives. -/
theorem work_of_result {result : Except LinkError Bytes}
    (h : reception.phase.result? = some result) : reception.work = reception := by
  unfold work
  cases hphase : reception.phase with
  | looking | answering | queuing =>
    rw [hphase] at h
    cases h
  | waiting | broken | unanswered | unqueued => rfl

/-- The reception has come to what an offer came to for the peer and its target. -/
structure Ends (reception : Reception σ) (received : Peer.Received σ) : Prop where
  result : reception.phase.result? = some received.result
  peer : reception.peer = received.peer
  target : some reception.target.inner = received.target

/-- An answer that is not refused brings the message to the queue. -/
theorem work_of_answer (hphase : reception.phase = .answering message rest) {slot : Option σ}
    (hanswer : reception.peer.answer (some reception.target.inner) message = (.ok (), slot)) :
    ∃ target, some target.inner = slot ∧
      reception.work = { reception with target := target, phase := .queuing message rest } := by
  rcases Peer.answer_eq_ok hanswer with
    ⟨before, nonce, ticket, next, hbefore, hasked, hwrite, rfl⟩ | ⟨rfl, hnothing⟩
  · obtain rfl := Option.some.inj hbefore
    exact ⟨_, rfl, work_of_accepted hphase hasked hwrite⟩
  · exact ⟨reception.target, rfl, work_of_unasked hphase (hnothing _ rfl)⟩

/-- Left alone, the steps of a peer do what offering the bytes does. -/
theorem ends_receive {bytes : Bytes} (hphase : reception.phase = .looking bytes) :
    ∃ count, let after := work^[count] reception
      Ends after (reception.peer.receive (some reception.target.inner) bytes) ∧
        after.taken = reception.taken ∧ after.arrived = reception.arrived := by
  generalize hpeer : reception.peer = peer
  generalize hslot : some reception.target.inner = slot
  induction peer, slot, bytes using Peer.receive_induction generalizing reception with
  | @waits peer next slot bytes rest hlook =>
    have hwork : reception.work = { reception with peer := next, phase := .waiting rest } := by
      simp only [work, hphase, hpeer, hlook]
    exact ⟨1, by rw [Function.iterate_one, hwork]; exact ⟨⟨rfl, rfl, hslot⟩, rfl, rfl⟩⟩
  | @breaks peer next slot bytes error hlook =>
    have hwork : reception.work = { reception with peer := next, phase := .broken error } := by
      simp only [work, hphase, hpeer, hlook]
    exact ⟨1, by rw [Function.iterate_one, hwork]; exact ⟨⟨rfl, rfl, hslot⟩, rfl, rfl⟩⟩
  | @unanswered peer next slot reached bytes rest message error hlook hanswer =>
    have hwork := work_of_decodes hphase (hpeer.symm ▸ hlook)
    obtain ⟨before, nonce, after, rfl, hasked, hwrite, rfl⟩ := Peer.answer_eq_error hanswer
    obtain rfl := Option.some.inj hslot
    refine ⟨2, ?_⟩
    rw [Function.iterate_succ_apply, Function.iterate_one, hwork,
      work_of_refused rfl hasked hwrite]
    exact ⟨⟨rfl, rfl, rfl⟩, rfl, rfl⟩
  | @unqueued peer next last slot reached bytes rest message error hlook hanswer hdeliver =>
    have hwork := work_of_decodes hphase (hpeer.symm ▸ hlook)
    subst hslot
    obtain ⟨target, htarget, hanswered⟩ := work_of_answer (show Reception.phase
      { reception with peer := next, phase := .answering message rest } = _ from rfl) hanswer
    refine ⟨3, ?_⟩
    rw [Function.iterate_succ_apply, Function.iterate_succ_apply, Function.iterate_one, hwork,
      hanswered, work_of_unqueued rfl hdeliver]
    exact ⟨⟨rfl, rfl, htarget⟩, rfl, rfl⟩
  | @queued peer next last slot reached bytes rest message hlook hanswer hdeliver ih =>
    have hwork := work_of_decodes hphase (hpeer.symm ▸ hlook)
    subst hslot
    obtain ⟨target, htarget, hanswered⟩ := work_of_answer (show Reception.phase
      { reception with peer := next, phase := .answering message rest } = _ from rfl) hanswer
    obtain ⟨count, hcount⟩ := ih (show Reception.phase
      { reception with peer := last, target := target, phase := .looking rest } = _ from rfl) rfl
      htarget
    refine ⟨count + 3, ?_⟩
    rw [Function.iterate_succ_apply, Function.iterate_succ_apply, Function.iterate_succ_apply,
      hwork, hanswered, work_of_queued rfl hdeliver]
    exact hcount

end Reception

end PeerProtocol
