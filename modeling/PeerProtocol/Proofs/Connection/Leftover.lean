import PeerProtocol.Proofs.Connection.Intake
import PeerProtocol.Proofs.Peer.Positions

/-!
# Peers count right

A peer answers with how many bytes it has consumed, and its connection ends if that is more than was
offered, or so little that the read buffer is left full. A peer leaves less than a magic and a
header have, and the read buffer is larger than that, so neither happens, whatever arrives and
whatever else is done to the connection (`failure_run`). The main statement, `countsRight`, says
this of every peer that there can be, with what the peer leaves in each case, and that its own loop
finds every difference and every part of the buffer that it needs.
-/

namespace PeerProtocol

open PeerProtocol.Connection (SocketRead)

namespace LinkError

/-- Whether the error says that a collaborator has consumed more than it was offered, or has left a
full read buffer as it is. -/
def isMiscount : LinkError → Bool
  | rejected (.overconsumed ..) | rejected .bufferFull => true
  | _ => false

/-- To refuse a message is something else. -/
theorem isMiscount_of_isRefusal {error : LinkError} (h : error.isRefusal = true) :
    error.isMiscount = false := by
  cases error with
  | rejected cause =>
    cases cause with
    | inboxFull => rfl
    | overconsumed | bufferFull | other => cases h
  | outboundOverflow | closed => rfl
  | connectFailed | connectTimeout | notRunning | codec | socket => rfl

end LinkError

namespace Connection

/-- A peer counts right what it is offered by a connection with room for a magic and a header. -/
theorem offer_counted {connection : Connection Peer} {chunk : Bytes} {error : LinkError}
    (hroom : Frame.overhead ≤ connection.capacity)
    (herror : (connection.offer chunk).1 = .error error) : error.isMiscount = false := by
  have houtcome := connection.collaborator.receive_outcome (some connection.outbox)
    (connection.buffered ++ chunk)
  obtain ⟨reached, hreached, -⟩ := Outbox.receive_answered connection.collaborator
    connection.outbox (connection.buffered ++ chunk)
  cases hreceived : connection.collaborator.receive (some connection.outbox)
    (connection.buffered ++ chunk) with
  | mk result next target =>
  rw [hreceived] at houtcome hreached
  obtain rfl : target = some reached := hreached
  cases houtcome with
  | waits new hqueued hrest hshort =>
    rw [offer_of_ok hreceived hrest (Nat.lt_of_lt_of_le hshort hroom)] at herror
    cases herror
  | breaks new hqueued =>
    rw [offer_of_error hreceived] at herror
    obtain rfl := Except.error.inj herror
    rfl
  | refused new lost hqueued hrefusal =>
    rw [offer_of_error hreceived] at herror
    obtain rfl := Except.error.inj herror
    exact LinkError.isMiscount_of_isRefusal (isRefusal_of_refusal hrefusal)

/-- Nor is anything else wrong with the count where a socket is read. -/
theorem read_counted {connection : Connection Peer} {read : SocketRead} {error : LinkError}
    (hroom : Frame.overhead ≤ connection.capacity)
    (herror : (connection.read read).1 = .error error) : error.isMiscount = false := by
  cases read with
  | nothing => cases herror
  | ended => cases herror
  | fails =>
    obtain rfl := Except.error.inj herror
    rfl
  | bytes chunk =>
    have hoffer : (connection.offer chunk).1.map (fun _ => true) = .error error := herror
    cases hresult : (connection.offer chunk).1 with
    | ok _ =>
      rw [hresult] at hoffer
      cases hoffer
    | error other =>
      rw [hresult] at hoffer
      obtain rfl := Except.error.inj hoffer
      exact offer_counted hroom hresult

end Connection

namespace Intake

variable {intake : Intake Peer} {stream : Bytes} {capacity : Nat}

/-- An event does not make a peer count wrong. -/
theorem failure_step (hsound : intake.Sound stream capacity) (hroom : Frame.overhead ≤ capacity)
    (hbefore : ∀ error, intake.failure = some error → error.isMiscount = false)
    (event : Event Peer) {error : LinkError}
    (herror : (intake.step stream event).failure = some error) : error.isMiscount = false := by
  cases event with
  | becomes | write | requestClose => exact hbefore error herror
  | turn shutdown answer writes =>
    simp only [step] at herror
    split at herror
    next => exact hbefore error herror
    next result after hreading =>
      obtain ⟨-, hread⟩ := Connection.isClosed_of_reading hreading
      cases result with
      | ok goesOn => cases herror
      | error other =>
        obtain rfl := Option.some.inj herror
        exact Connection.read_counted (hsound.size_eq ▸ hroom) (congrArg Prod.fst hread)

/-- A run does not end because a peer has counted wrong. -/
theorem failure_run (hsound : intake.Sound stream capacity) (hroom : Frame.overhead ≤ capacity)
    (hbefore : ∀ error, intake.failure = some error → error.isMiscount = false)
    (events : List (Event Peer)) :
    ∀ error, (intake.run stream events).failure = some error → error.isMiscount = false := by
  induction events generalizing intake with
  | nil => exact hbefore
  | cons event events ih =>
    exact ih (hsound.step event) fun error => failure_step hsound hroom hbefore event

end Intake

namespace Peer

/-- What is certain of the counts of a peer.

* A frame in progress holds fewer bytes than its size says, which is at most 32 MiB.
* Whatever is offered, the loop of the peer returns and no pass fails: no difference is negative,
and no part of the buffer begins outside of it.
* The count is that of the bytes before those that are left, which are fewer than a magic and a
header: none where a frame is in progress, else the magic that the bytes behind the last whole frame
have begun, or the magic and the part of a header that is there.
* The connection of the peer does not end because of a count, whatever arrives and whatever else is
done to it. -/
structure CountsRight (peer : Peer) : Prop where
  pending : ∀ frame ∈ peer.pending,
    frame.payload.length < frame.header.size ∧ frame.header.size ≤ 32 * 1024 * 1024
  returns : ∀ {σ : Type} [WriteTarget σ] (target : Option σ) (buffer : Bytes),
    Loop.Returns buffer ⟨peer, target, .goes 0⟩ (peer.receive target buffer)
  leaves : ∀ {σ : Type} [WriteTarget σ] (target : Option σ) (buffer : Bytes) (count : Nat),
    (peer.receive target buffer).consumed buffer = .ok count →
      count ≤ buffer.length ∧ buffer.length ≤ count + 23 ∧
        ((peer.receive target buffer).peer.pending ≠ none → buffer.drop count = []) ∧
        ∃ between tail, Behind peer.dialect.network peer.pending buffer between tail ∧
          Stops peer.dialect.network between tail (peer.receive target buffer).peer.pending
            (buffer.drop count)
  driven : ∀ (stream : Bytes) (events : List (Intake.Event Peer)) (error : LinkError),
    ((Intake.start peer).run stream events).failure = some error → error.isMiscount = false

/-- Every peer counts right. -/
theorem countsRight {peer : Peer} (hreachable : peer.Reachable) : peer.CountsRight where
  pending frame hframe := by
    obtain ⟨hsize, hmissing, hcap⟩ := hreachable.sound frame hframe
    exact ⟨by omega, hcap⟩
  returns target buffer := returns_receive hreachable.sound target buffer
  leaves target buffer count hcount := by
    have hends := peer.endsUp_receive target buffer
    unfold EndsUp at hends
    cases hresult : (peer.receive target buffer).result with
    | error error =>
      rw [Received.consumed, hresult] at hcount
      cases hcount
    | ok rest =>
      rw [Received.consumed, hresult] at hcount
      rw [hresult] at hends
      obtain rfl : buffer.length - rest.length = count := Except.ok.inj hcount
      obtain ⟨hsuffix, hshort⟩ := receive_leaves hresult
      rw [Frame.overhead] at hshort
      rw [← List.suffix_iff_eq_drop.1 hsuffix]
      refine ⟨Nat.sub_le _ _, by omega, fun hlast => ?_, hends⟩
      obtain ⟨between, tail, -, hstops⟩ := hends
      exact hstops.eq_nil hlast
  driven stream events := by
    have hroom : Frame.overhead ≤ Connection.bufferSize (Collaborator.maxMessageSize peer) := by
      show 24 ≤ max 4096 _
      omega
    refine Intake.failure_run (Intake.sound_start stream peer) hroom (fun error herror => ?_) events
    cases herror

/-- A peer that has one byte of a payload of two. -/
theorem countsRight_midPayload :
    let raw : Bytes := [0x61] ++ List.replicate 11 0 ++ [2, 0, 0, 0] ++ [1, 2, 3, 4]
    let fresh := Peer.new ⟨.main, Dialect.currentVersion, false⟩ ⟨0⟩
    let peer := (fresh.receive (none : Option Outbox) (Network.main.magic ++ raw ++ [7])).peer
    peer.Reachable ∧ peer.pending.map PartialFrame.payload = some [7] ∧ peer.CountsRight := by
  intro raw fresh peer
  have hreachable : peer.Reachable := .receive none _ (.new _ _)
  have hpending : peer.pending = some (.start ⟨"a", 2, [1, 2, 3, 4]⟩ [7]) := by
    have hseek : Network.main.seekMagic (Network.main.magic ++ raw ++ [7]) = .found 4 := rfl
    have hraw : Bytes.split? Header.length ((Network.main.magic ++ raw ++ [7]).drop 4) =
        some (raw, [7]) := rfl
    have hheader : Header.decode raw = .ok ⟨"a", 2, [1, 2, 3, 4]⟩ := by decide
    show (fresh.receive (none : Option Outbox) _).peer.pending = _
    rw [receive_of_idle rfl, receiveFrames_of_header rfl hseek hraw hheader]
    rfl
  refine ⟨hreachable, ?_, countsRight hreachable⟩
  rw [hpending]
  rfl

end Peer

end PeerProtocol
