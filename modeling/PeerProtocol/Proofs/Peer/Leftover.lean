import PeerProtocol.Proofs.Frame.Header
import PeerProtocol.Proofs.Frame.Resumption
import PeerProtocol.Proofs.Peer.Steps

/-!
# What a peer leaves unconsumed

A peer that is offered bytes goes past their whole frames (`Behind`) and stops in what follows the
last of them (`Stops`): outside of a frame, where it leaves the magic that these bytes have begun;
in a header, where it leaves the magic and the part of the header that is there; or in a payload,
where it leaves nothing. So it leaves fewer bytes than a magic and a header have
(`Stops.length_lt`). Whatever happens to a peer, the frame in progress lacks some of its payload,
and the peer holds what is there of it (`Reachable.sound`).
-/

namespace PeerProtocol

/-! ## Frames in progress -/

namespace PartialFrame

/-- A frame in progress lacks some of its payload, whose size is within the cap. -/
structure Sound (frame : PartialFrame) : Prop where
  size_eq : frame.payload.length + frame.missing = frame.header.size
  missing_pos : 0 < frame.missing
  size_le : frame.header.size ≤ maxMessageSize

/-- A frame that starts with too few bytes is in progress. -/
theorem sound_start {header : Header} {body : Bytes} (hshort : body.length < header.size)
    (hsize : header.size ≤ maxMessageSize) : (start header body).Sound where
  size_eq := by
    show body.reverse.reverse.length + (header.size - body.length) = header.size
    rw [List.reverse_reverse]
    omega
  missing_pos := Nat.sub_pos_of_lt hshort
  size_le := hsize

/-- A frame that is given too few bytes is still in progress. -/
theorem Sound.extend {frame : PartialFrame} (h : frame.Sound) {bytes : Bytes}
    (hshort : bytes.length < frame.missing) : (frame.extend bytes).Sound where
  size_eq := by
    rw [payload_extend, List.length_append, missing_extend, header_extend, ← h.size_eq]
    omega
  missing_pos := Nat.sub_pos_of_lt hshort
  size_le := h.size_le

end PartialFrame

/-! ## The parts of what is offered -/

/-- The first whole frame of some bytes, which is the one in progress if there is one, ends before
`rest`. -/
inductive FrameEnds (network : Network) : Option PartialFrame → Bytes → Bytes → Prop
  | next {bytes noise raw payload rest : Bytes} {header : Header}
      (hopens : network.Opens bytes noise (raw ++ (payload ++ rest)))
      (hspelled : header.Spelled raw) (hsize : payload.length = header.size) :
      FrameEnds network none bytes rest
  | pending {frame : PartialFrame} {piece rest : Bytes} (hsize : piece.length = frame.missing) :
      FrameEnds network (some frame) (piece ++ rest) rest

/-- What follows some whole frames, and the frame that is in progress there: none, unless it is the
one that was in progress before. -/
inductive Behind (network : Network) :
    Option PartialFrame → Bytes → Option PartialFrame → Bytes → Prop
  | here {pending : Option PartialFrame} {bytes : Bytes} :
      Behind network pending bytes pending bytes
  | frame {pending last : Option PartialFrame} {bytes rest tail : Bytes}
      (hends : FrameEnds network pending bytes rest)
      (hbehind : Behind network none rest last tail) :
      Behind network pending bytes last tail

/-- What is left of bytes without a whole frame, and the frame that is in progress afterwards. -/
inductive Stops (network : Network) :
    Option PartialFrame → Bytes → Option PartialFrame → Bytes → Prop
  /-- There is no magic: what is left is the magic that the bytes have begun. -/
  | noise {tail begun : Bytes} (habsent : ¬ network.magic <:+: tail)
      (hbegun : network.Begun tail begun) : Stops network none tail none begun
  /-- The header is not all there: what is left is the magic and what is there of the header. -/
  | header {tail noise front : Bytes} (hopens : network.Opens tail noise front)
      (hshort : front.length < Header.length) :
      Stops network none tail none (network.magic ++ front)
  /-- The payload is not all there: nothing is left. -/
  | payload {tail noise raw body : Bytes} {header : Header}
      (hopens : network.Opens tail noise (raw ++ body)) (hspelled : header.Spelled raw)
      (hshort : body.length < header.size) :
      Stops network none tail (some (.start header body)) []
  /-- The payload of the frame in progress is still not all there: nothing is left. -/
  | more {frame : PartialFrame} {tail : Bytes} (hshort : tail.length < frame.missing) :
      Stops network (some frame) tail (some (frame.extend tail)) []

section

variable {network : Network} {pending last : Option PartialFrame} {bytes tail rest : Bytes}

/-- What is behind a frame is the end of the bytes. -/
theorem FrameEnds.suffix (h : FrameEnds network pending bytes rest) : rest <:+ bytes := by
  cases h with
  | @next bytes noise raw payload rest header hopens =>
    exact ⟨noise ++ (network.magic ++ (raw ++ payload)), by
      rw [hopens.buffer_eq]
      simp only [List.append_assoc]⟩
  | @pending frame piece rest => exact ⟨piece, rfl⟩

/-- What is behind some frames is the end of the bytes. -/
theorem Behind.suffix (h : Behind network pending bytes last tail) : tail <:+ bytes := by
  induction h with
  | here => exact List.suffix_rfl
  | frame hends _ ih => exact ih.trans hends.suffix

/-- A frame that is in progress behind some frames lacks some of its payload, if this is so before.
-/
theorem Behind.sound (h : Behind network pending bytes last tail)
    (hsound : ∀ frame ∈ pending, frame.Sound) : ∀ frame ∈ last, frame.Sound := by
  induction h with
  | here => exact hsound
  | frame _ _ ih => exact ih nofun

/-- What is left is the end of the bytes. -/
theorem Stops.suffix (h : Stops network pending tail last rest) : rest <:+ tail := by
  cases h with
  | noise habsent hbegun => exact hbegun.suffix
  | @header tail noise front hopens => exact ⟨noise, hopens.buffer_eq.symm⟩
  | payload => exact List.nil_suffix
  | more => exact List.nil_suffix

/-- Fewer bytes are left than a magic and a header have. -/
theorem Stops.length_lt (h : Stops network pending tail last rest) :
    rest.length < Frame.overhead := by
  cases h with
  | noise habsent hbegun =>
    have hlt := Network.length_lt_of_front hbegun.front hbegun.incomplete
    rw [Frame.overhead]
    omega
  | header hopens hshort =>
    rw [List.length_append, network.length_magic, Frame.overhead]
    rw [Header.length] at hshort
    omega
  | payload => decide
  | more => decide

/-- Nothing is left where a frame is in progress afterwards. -/
theorem Stops.eq_nil (h : Stops network pending tail last rest) (hlast : last ≠ none) :
    rest = [] := by
  cases h with
  | noise => exact absurd rfl hlast
  | header => exact absurd rfl hlast
  | payload => rfl
  | more => rfl

/-- The frame that is in progress afterwards lacks some of its payload, if this is so before. -/
theorem Stops.sound (h : Stops network pending tail last rest)
    (hsound : ∀ frame ∈ pending, frame.Sound) : ∀ frame ∈ last, frame.Sound := by
  intro frame hframe
  cases h with
  | noise => cases hframe
  | header => cases hframe
  | payload hopens hspelled hshort =>
    obtain rfl := Option.some.inj hframe
    exact PartialFrame.sound_start hshort hspelled.size_le
  | more hshort =>
    obtain rfl := Option.some.inj hframe
    exact (hsound _ rfl).extend hshort

end

/-- What follows the place where a search has found the first magic. -/
theorem Network.opens_of_found {network : Network} {buffer : Bytes} {start : Nat}
    (h : network.seekMagic buffer = .found start) :
    ∃ noise, network.Opens buffer noise (buffer.drop start) := by
  obtain ⟨noise, rest, hopens, rfl⟩ := seekMagic_eq_found_iff.1 h
  have hrest : buffer.drop (noise.length + 4) = rest := by
    rw [← List.drop_drop, hopens.buffer_eq, List.drop_left, List.drop_left' network.length_magic]
  exact ⟨noise, hrest ▸ hopens⟩

/-! ## Peers -/

namespace Peer

variable {σ : Type}

/-- The states that a peer can be in, whatever it is offered, wherever its frames go, and whatever
the application does. Lists that others make are numbered in between. -/
inductive Reachable : Peer → Prop
  | new (dialect : Dialect) (firstList : ListId) : Reachable (Peer.new dialect firstList)
  | receive {peer : Peer} {σ : Type} [WriteTarget σ] (target : Option σ) (bytes : Bytes)
      (h : Reachable peer) : Reachable (peer.receive target bytes).peer
  | take {peer next : Peer} {message : Message} (taken : peer.take? = some (message, next))
      (h : Reachable peer) : Reachable next
  | dropHandle {peer : Peer} (h : Reachable peer) : Reachable peer.dropHandle
  | number {peer : Peer} (nextList : ListId) (h : Reachable peer) :
      Reachable { peer with nextList := nextList }

/-- The frame in progress, if there is one, lacks some of its payload. -/
def Sound (peer : Peer) : Prop :=
  ∀ frame ∈ peer.pending, frame.Sound

/-- How a peer ends up after it was offered bytes: it stops behind the last of the whole frames, or
after an error no frame is in progress. -/
def EndsUp (peer : Peer) (bytes : Bytes) (received : Received σ) : Prop :=
  match received.result with
  | .ok rest => ∃ between tail, Behind peer.dialect.network peer.pending bytes between tail ∧
      Stops peer.dialect.network between tail received.peer.pending rest
  | .error _ => received.peer.pending = none

/-- A peer that stops has no frame behind it. -/
theorem endsUp_of_stops {peer next : Peer} {target : Option σ} {bytes rest : Bytes}
    (h : Stops peer.dialect.network peer.pending bytes next.pending rest) :
    EndsUp peer bytes (⟨.ok rest, next, target⟩ : Received σ) :=
  ⟨peer.pending, bytes, .here, h⟩

/-- How a peer ends up behind a frame is how it ends up. -/
theorem EndsUp.after {peer next : Peer} {bytes rest : Bytes} {received : Received σ}
    (h : EndsUp next rest received) (hdialect : next.dialect = peer.dialect)
    (hidle : next.pending = none) (hends : FrameEnds peer.dialect.network peer.pending bytes rest) :
    EndsUp peer bytes received := by
  unfold EndsUp at h ⊢
  rw [hdialect, hidle] at h
  split
  next hresult =>
    rw [hresult] at h
    obtain ⟨between, tail, hbehind, hstops⟩ := h
    exact ⟨between, tail, .frame hends hbehind, hstops⟩
  next hresult =>
    rw [hresult] at h
    exact h

variable [WriteTarget σ]

/-- Dispatching a frame does not begin another one. -/
theorem dispatch_kept (peer : Peer) (target : Option σ) (header : Header) (payload : Bytes) :
    (peer.dispatch target header payload).2.1.pending = peer.pending ∧
      (peer.dispatch target header payload).2.1.dialect = peer.dialect := by
  unfold dispatch
  split
  next => exact ⟨rfl, rfl⟩
  next message _ =>
    dsimp only
    split
    next => exact ⟨rfl, rfl⟩
    next =>
      dsimp only [deliver]
      split
      next => exact ⟨rfl, rfl⟩
      next => split <;> exact ⟨rfl, rfl⟩

/-- How a peer without a frame in progress ends up. -/
theorem endsUp_receiveFrames {peer : Peer} (target : Option σ) (bytes : Bytes)
    (hidle : peer.pending = none) : EndsUp peer bytes (peer.receiveFrames target bytes) := by
  fun_induction receiveFrames peer target bytes with
  | case1 peer target bytes discard hseek =>
    refine endsUp_of_stops ?_
    rw [hidle]
    exact .noise (Network.seekMagic_eq_absent_iff.1 ⟨discard, hseek⟩)
      (Network.begun_of_absent hseek)
  | case2 peer target bytes start hseek hraw =>
    refine endsUp_of_stops ?_
    obtain ⟨noise, hopens⟩ := Network.opens_of_found hseek
    obtain ⟨-, -, hdrop⟩ := Network.drop_of_found hseek
    rw [hidle, hdrop]
    exact .header hopens (Bytes.split?_eq_none_iff.1 hraw)
  | case3 => exact hidle
  | case4 peer target bytes start hseek raw body hraw header hheader hpayload =>
    refine endsUp_of_stops ?_
    obtain ⟨noise, hopens⟩ := Network.opens_of_found hseek
    obtain ⟨hbody, hlength⟩ := Bytes.split?_eq_some_iff.1 hraw
    rw [hbody] at hopens
    rw [hidle]
    exact .payload hopens ((Header.decode_eq_ok_iff hlength).1 hheader)
      (Bytes.split?_eq_none_iff.1 hpayload)
  | case5 peer target bytes start hseek raw body hraw header hheader payload rest hpayload error
      next reached hdispatch =>
    have hkept := (dispatch_kept peer target header payload).1
    rw [hdispatch] at hkept
    exact hkept.trans hidle
  | case6 peer target bytes start hseek raw body hraw header hheader payload rest hpayload next
      reached hdispatch ih =>
    obtain ⟨hpending, hdialect⟩ := dispatch_kept peer target header payload
    rw [hdispatch] at hpending hdialect
    obtain ⟨noise, hopens⟩ := Network.opens_of_found hseek
    obtain ⟨hbody, hlength⟩ := Bytes.split?_eq_some_iff.1 hraw
    obtain ⟨rfl, hsize⟩ := Bytes.split?_eq_some_iff.1 hpayload
    rw [hbody] at hopens
    refine (ih (hpending.trans hidle)).after hdialect (hpending.trans hidle) ?_
    rw [hidle]
    exact .next hopens ((Header.decode_eq_ok_iff hlength).1 hheader) hsize

/-- How a peer ends up, whatever it is in the middle of. -/
theorem endsUp_receive (peer : Peer) (target : Option σ) (bytes : Bytes) :
    EndsUp peer bytes (peer.receive target bytes) := by
  unfold receive
  split
  next hidle => exact endsUp_receiveFrames target bytes hidle
  next frame hpending =>
    split
    next hpiece =>
      refine endsUp_of_stops ?_
      rw [hpending]
      exact .more (Bytes.split?_eq_none_iff.1 hpiece)
    next piece rest hpiece =>
      obtain ⟨rfl, hsize⟩ := Bytes.split?_eq_some_iff.1 hpiece
      obtain ⟨hidle, hdialect⟩ := dispatch_kept { peer with pending := none } target frame.header
        (frame.extend piece).payload
      split
      next hdispatch =>
        rw [hdispatch] at hidle
        exact hidle
      next next reached hdispatch =>
        rw [hdispatch] at hidle hdialect
        refine (endsUp_receiveFrames reached rest hidle).after hdialect hidle ?_
        rw [hpending]
        exact .pending hsize

/-- Of what a peer was offered it leaves an end, which is shorter than a magic and a header. -/
theorem receive_leaves {peer : Peer} {target : Option σ} {bytes rest : Bytes}
    (h : (peer.receive target bytes).result = .ok rest) :
    rest <:+ bytes ∧ rest.length < Frame.overhead := by
  have hends := peer.endsUp_receive target bytes
  unfold EndsUp at hends
  rw [h] at hends
  obtain ⟨between, tail, hbehind, hstops⟩ := hends
  exact ⟨hstops.suffix.trans hbehind.suffix, hstops.length_lt⟩

/-- Being offered bytes keeps a peer sound. -/
theorem Sound.receive {peer : Peer} (h : peer.Sound) (target : Option σ) (bytes : Bytes) :
    (peer.receive target bytes).peer.Sound := by
  have hends := peer.endsUp_receive target bytes
  unfold EndsUp at hends
  split at hends
  next =>
    obtain ⟨between, tail, hbehind, hstops⟩ := hends
    exact hstops.sound (hbehind.sound h)
  next =>
    unfold Sound
    rw [hends]
    nofun

/-- Every peer is sound. -/
theorem Reachable.sound {peer : Peer} (h : Reachable peer) : peer.Sound := by
  induction h with
  | new => nofun
  | receive target bytes _ ih => exact ih.receive target bytes
  | @take peer next message htake _ ih =>
    unfold take? at htake
    split at htake
    next => cases htake
    next =>
      obtain ⟨-, rfl⟩ := Prod.mk.inj (Option.some.inj htake)
      exact ih
  | dropHandle _ ih => exact ih
  | number _ _ ih => exact ih

end Peer

end PeerProtocol
