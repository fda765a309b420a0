import PeerProtocol.Proofs.Peer.Leftover

/-!
# Receiving by positions

Being offered bytes as a loop that counts what it has consumed. A pass collects bytes for the frame
in progress or looks for the next header. What it needs of counts and sizes are differences, which
must not be negative, and parts of the buffer, which must begin inside of it; a pass that needs one
that does not exist fails. For a peer whose frame in progress lacks some of its payload no pass
fails, and the loop returns what `receive` answers (`returns_receive`): the number of the bytes
before those that are left.
-/

namespace PeerProtocol

/-- A difference that must not be negative. -/
def minus? (value less : Nat) : Option Nat :=
  if less ≤ value then some (value - less) else none

/-- A difference that is not negative. -/
theorem minus?_of_le {value less : Nat} (h : less ≤ value) :
    minus? value less = some (value - less) :=
  if_pos h

/-- What stands in a buffer from a position on, which must not be outside of it. -/
def from? (buffer : Bytes) (position : Nat) : Option Bytes :=
  if position ≤ buffer.length then some (buffer.drop position) else none

/-- An end of the buffer stands where the bytes before it end. -/
theorem from?_of_suffix {buffer rest : Bytes} (h : rest <:+ buffer) :
    from? buffer (buffer.length - rest.length) = some rest := by
  rw [from?, if_pos (Nat.sub_le _ _), ← List.suffix_iff_eq_drop.1 h]

/-! ## Looking for the magic -/

namespace MagicSearch

/-- Looks on after `seen` bytes of which the last `matched` begin a magic; at the end the two are
subtracted. -/
def scan? (magic : Bytes) : (matched seen : Nat) → Bytes → Option MagicSearch
  | matched, seen, [] => (minus? seen matched).map .absent
  | matched, seen, byte :: rest =>
      let matched := advance magic matched byte
      if matched = magic.length then some (.found (seen + 1))
      else scan? magic matched (seen + 1) rest

/-- One more byte is at most one more that is matched. -/
theorem advance_le (magic : Bytes) (matched : Nat) (byte : UInt8) :
    advance magic matched byte ≤ matched + 1 := by
  unfold advance
  split
  · exact Nat.le_refl _
  · split <;> omega

/-- No more bytes are matched than were seen. -/
theorem scan?_eq (magic : Bytes) {matched seen : Nat} (h : matched ≤ seen) (bytes : Bytes) :
    scan? magic matched seen bytes = some (scan magic matched seen bytes) := by
  induction bytes generalizing matched seen with
  | nil => rw [scan?, minus?_of_le h, scan, Option.map_some]
  | cons byte rest ih =>
    have hnext := advance_le magic matched byte
    rw [scan?, scan]
    split
    next => rfl
    next => exact ih (by omega)

end MagicSearch

namespace Peer

/-! ## Passes -/

/-- Where the loop is: it has consumed so many bytes, or it has returned. -/
inductive Control where
  | goes (consumed : Nat)
  | returned (result : Except LinkError Nat)

/-- A peer in the loop. -/
structure Loop (σ : Type) where
  peer : Peer
  target : Option σ
  control : Control

namespace Loop

variable {σ : Type} [WriteTarget σ]

/-- After a frame was dispatched: the loop goes on, unless there was an error. -/
def dispatched (consumed : Nat) : Except LinkError Unit × Peer × Option σ → Loop σ
  | (.error error, peer, target) => ⟨peer, target, .returned (.error error)⟩
  | (.ok (), peer, target) => ⟨peer, target, .goes consumed⟩

/-- Collects what is there of the payload of the frame in progress, and dispatches the frame if that
is all of it. -/
def collect (buffer : Bytes) (peer : Peer) (target : Option σ) (frame : PartialFrame)
    (consumed : Nat) : Option (Loop σ) := do
  let missing ← minus? frame.header.size frame.payload.length
  let room ← minus? buffer.length consumed
  let rest ← from? buffer consumed
  let count := min missing room
  let frame := frame.extend (rest.take count)
  let consumed := consumed + count
  if frame.payload.length < frame.header.size then
    some ⟨{ peer with pending := some frame }, target, .returned (.ok consumed)⟩
  else
    let idle := { peer with pending := none }
    some (dispatched consumed (idle.dispatch target frame.header frame.payload))

/-- Looks for the next magic and begins the frame of the header behind it. A magic without a whole
header is not consumed. -/
def search (buffer : Bytes) (peer : Peer) (target : Option σ) (consumed : Nat) :
    Option (Loop σ) := do
  let rest ← from? buffer consumed
  match ← MagicSearch.scan? peer.dialect.network.magic 0 0 rest with
  | .absent discard => some ⟨peer, target, .returned (.ok (consumed + discard))⟩
  | .found start =>
    match Bytes.split? Header.length (rest.drop start) with
    | none => do
      let kept ← minus? (consumed + start) 4
      some ⟨peer, target, .returned (.ok kept)⟩
    | some (raw, _) =>
      match Header.decode raw with
      | .error error => some ⟨peer, target, .returned (.error (.codec error))⟩
      | .ok header =>
        let begun := { peer with pending := some (.start header []) }
        some ⟨begun, target, .goes (consumed + start + Header.length)⟩

/-- One pass of the loop, unless it has returned. -/
def pass (buffer : Bytes) (loop : Loop σ) : Option (Loop σ) :=
  match loop.control with
  | .returned _ => none
  | .goes consumed =>
    match loop.peer.pending with
    | some frame => collect buffer loop.peer loop.target frame consumed
    | none => search buffer loop.peer loop.target consumed

/-- The loop after so many passes, if none of them fails. -/
def run (buffer : Bytes) : (passes : Nat) → Loop σ → Option (Loop σ)
  | 0, loop => some loop
  | passes + 1, loop => pass buffer loop >>= run buffer passes

/-- The loop has returned what came of offering the bytes. -/
def finished (buffer : Bytes) (received : Received σ) : Loop σ :=
  ⟨received.peer, received.target, .returned (received.consumed buffer)⟩

/-- The loop returns, and no pass fails. -/
def Returns (buffer : Bytes) (loop : Loop σ) (received : Received σ) : Prop :=
  ∃ passes, run buffer passes loop = some (finished buffer received)

variable {buffer bytes : Bytes} {peer : Peer} {target : Option σ}

/-- A pass that returns is the last one. -/
theorem returns_of_pass {loop : Loop σ} {received : Received σ}
    (h : pass buffer loop = some (finished buffer received)) : Returns buffer loop received :=
  ⟨1, by rw [run, h]; rfl⟩

/-- After a pass the others follow. -/
theorem Returns.of_pass {loop next : Loop σ} {received : Received σ}
    (hnext : Returns buffer next received) (h : pass buffer loop = some next) :
    Returns buffer loop received := by
  obtain ⟨passes, hpasses⟩ := hnext
  exact ⟨passes + 1, by rw [run, h]; exact hpasses⟩

/-- For a frame in progress a pass collects bytes. If they are too few it returns, having consumed
all of them, else it dispatches the frame. -/
theorem pass_collect (target : Option σ) {frame : PartialFrame}
    (hpending : peer.pending = some frame)
    (hsize : frame.payload.length + frame.missing = frame.header.size) (hbytes : bytes <:+ buffer) :
    pass buffer ⟨peer, target, .goes (buffer.length - bytes.length)⟩ =
      match Bytes.split? frame.missing bytes with
      | none => some (finished buffer
          ⟨.ok [], { peer with pending := some (frame.extend bytes) }, target⟩)
      | some (piece, rest) => some (dispatched (buffer.length - rest.length)
          ({ peer with pending := none }.dispatch target frame.header
            (frame.extend piece).payload)) := by
  have hle := hbytes.length_le
  have hmissing : frame.header.size - frame.payload.length = frame.missing := by omega
  have hroom : buffer.length - (buffer.length - bytes.length) = bytes.length := by omega
  have hpayload (piece : Bytes) :
      (frame.extend piece).payload.length = frame.payload.length + piece.length := by
    rw [PartialFrame.payload_extend, List.length_append]
  simp only [pass, hpending, collect, minus?_of_le (show frame.payload.length ≤ frame.header.size by
    omega), minus?_of_le (Nat.sub_le buffer.length bytes.length), from?_of_suffix hbytes,
    Option.bind_eq_bind, Option.bind_some, hmissing, hroom]
  cases hsplit : Bytes.split? frame.missing bytes with
  | none =>
    have hshort := Bytes.split?_eq_none_iff.1 hsplit
    rw [Nat.min_eq_right (Nat.le_of_lt hshort), List.take_length, if_pos]
    · rw [finished, Received.consumed, Except.map, List.length_nil, Nat.sub_add_cancel hle]
      rfl
    · rw [hpayload, PartialFrame.header_extend]
      omega
  | some parts =>
    obtain ⟨piece, rest⟩ := parts
    obtain ⟨rfl, hpiece⟩ := Bytes.split?_eq_some_iff.1 hsplit
    rw [List.length_append] at hle ⊢
    rw [Nat.min_eq_left (by omega), List.take_left' hpiece, if_neg]
    · rw [PartialFrame.header_extend, show buffer.length - (piece.length + rest.length) +
        frame.missing = buffer.length - rest.length by omega]
    · rw [hpayload, PartialFrame.header_extend]
      omega

/-- Without a frame in progress a pass looks for the next magic and reads the header behind it. -/
theorem pass_search (target : Option σ) (hidle : peer.pending = none) (hbytes : bytes <:+ buffer) :
    pass buffer ⟨peer, target, .goes (buffer.length - bytes.length)⟩ =
      match peer.dialect.network.seekMagic bytes with
      | .absent discard => some (finished buffer ⟨.ok (bytes.drop discard), peer, target⟩)
      | .found start =>
        match Bytes.split? Header.length (bytes.drop start) with
        | none => some (finished buffer ⟨.ok (bytes.drop (start - 4)), peer, target⟩)
        | some (raw, body) =>
          match Header.decode raw with
          | .error error => some (finished buffer ⟨.error (.codec error), peer, target⟩)
          | .ok header => some ⟨{ peer with pending := some (.start header []) }, target,
              .goes (buffer.length - body.length)⟩ := by
  have hle := hbytes.length_le
  have hscan := MagicSearch.scan?_eq peer.dialect.network.magic (Nat.le_refl 0) bytes
  rw [← Network.seekMagic] at hscan
  simp only [pass, hidle, search, from?_of_suffix hbytes, hscan, Option.bind_eq_bind,
    Option.bind_some]
  cases hseek : peer.dialect.network.seekMagic bytes with
  | absent discard =>
    obtain ⟨hdiscard, -⟩ := Network.seekMagic_append_of_absent hseek
    simp only [finished, Received.consumed, Except.map, List.length_drop]
    rw [show buffer.length - (bytes.length - discard) =
      buffer.length - bytes.length + discard by omega]
  | found start =>
    obtain ⟨hfour, hstart, -⟩ := Network.drop_of_found hseek
    dsimp only
    cases hraw : Bytes.split? Header.length (bytes.drop start) with
    | none =>
      simp only [minus?_of_le (show 4 ≤ buffer.length - bytes.length + start by omega),
        Option.bind_some, finished, Received.consumed, Except.map, List.length_drop]
      rw [show buffer.length - (bytes.length - (start - 4)) =
        buffer.length - bytes.length + start - 4 by omega]
    | some parts =>
      obtain ⟨raw, body⟩ := parts
      have hbody := length_of_split? hraw
      rw [List.length_drop] at hbody
      dsimp only
      cases Header.decode raw with
      | error error => rfl
      | ok header =>
        dsimp only
        rw [show buffer.length - bytes.length + start + Header.length =
          buffer.length - body.length by omega]

/-- The loop returns from a frame in progress if it returns from what is behind the frame, where
none is in progress. -/
theorem returns_collect {frame : PartialFrame} (hpending : peer.pending = some frame)
    (hsize : frame.payload.length + frame.missing = frame.header.size) (hbytes : bytes <:+ buffer)
    (hbehind : ∀ rest (next : Peer) (reached : Option σ), rest <:+ bytes → next.pending = none →
      Returns buffer ⟨next, reached, .goes (buffer.length - rest.length)⟩
        (next.receiveFrames reached rest)) :
    Returns buffer ⟨peer, target, .goes (buffer.length - bytes.length)⟩
      (peer.receive target bytes) := by
  have hpass := pass_collect target hpending hsize hbytes
  rw [receive, hpending]
  dsimp only
  cases hsplit : Bytes.split? frame.missing bytes with
  | none =>
    rw [hsplit] at hpass
    exact returns_of_pass hpass
  | some parts =>
    obtain ⟨piece, rest⟩ := parts
    obtain ⟨rfl, -⟩ := Bytes.split?_eq_some_iff.1 hsplit
    obtain ⟨hidle, -⟩ := dispatch_kept { peer with pending := none } target frame.header
      (frame.extend piece).payload
    rw [hsplit] at hpass
    dsimp only at hpass ⊢
    split
    next error next reached hdispatch =>
      rw [hdispatch] at hpass
      exact returns_of_pass hpass
    next next reached hdispatch =>
      rw [hdispatch] at hpass hidle
      exact (hbehind rest next reached (List.suffix_append piece rest) hidle).of_pass hpass

end Loop

variable {σ : Type} [WriteTarget σ] {buffer bytes : Bytes} {peer : Peer} {target : Option σ}

/-- A peer without a frame in progress takes frames off what it is offered. -/
theorem receive_of_idle (hidle : peer.pending = none) :
    peer.receive target bytes = peer.receiveFrames target bytes := by
  rw [receive, hidle]

/-- Reading a header is beginning a frame of whose payload nothing is there yet. -/
theorem receiveFrames_of_header (hidle : peer.pending = none) {start : Nat} {raw body : Bytes}
    {header : Header} (hseek : peer.dialect.network.seekMagic bytes = .found start)
    (hraw : Bytes.split? Header.length (bytes.drop start) = some (raw, body))
    (hheader : Header.decode raw = .ok header) :
    peer.receiveFrames target bytes =
      { peer with pending := some (.start header []) }.receive target body := by
  have hpeer : { peer with pending := none } = peer := by rw [← hidle]
  have hextend (piece : Bytes) :
      (PartialFrame.start header []).extend piece = .start header piece := by
    simp [PartialFrame.start, PartialFrame.extend, List.reverseAux_eq]
  have hpayload (piece : Bytes) : (PartialFrame.start header piece).payload = piece :=
    List.reverse_reverse piece
  have hlook : peer.look bytes = look { peer with pending := some (.start header []) } body := by
    simp only [look, hidle, hseek, hraw, hheader, hextend, hpayload, hpeer]
    rfl
  rw [← receive_of_idle hidle, receive_eq, receive_eq, hlook]

/-- Without a frame in progress the loop returns what comes of the bytes. -/
theorem returns_receiveFrames (hidle : peer.pending = none) (hbytes : bytes <:+ buffer) :
    Loop.Returns buffer ⟨peer, target, .goes (buffer.length - bytes.length)⟩
      (peer.receiveFrames target bytes) := by
  induction hlength : bytes.length using Nat.strongRecOn generalizing peer target bytes with
  | _ count ih =>
  rw [← hlength] at ih ⊢
  have hpass := Loop.pass_search target hidle hbytes
  have hframes : peer.receiveFrames target bytes = settle target (peer.look bytes) := by
    rw [← receive_of_idle hidle, receive_eq]
  cases hseek : peer.dialect.network.seekMagic bytes with
  | absent discard =>
    simp only [look, hidle, hseek, settle] at hframes hpass
    rw [hframes]
    exact Loop.returns_of_pass hpass
  | found start =>
    cases hraw : Bytes.split? Header.length (bytes.drop start) with
    | none =>
      simp only [look, hidle, hseek, hraw, settle] at hframes hpass
      rw [hframes]
      exact Loop.returns_of_pass hpass
    | some parts =>
      obtain ⟨raw, body⟩ := parts
      cases hheader : Header.decode raw with
      | error error =>
        simp only [look, hidle, hseek, hraw, hheader, settle] at hframes hpass
        rw [hframes]
        exact Loop.returns_of_pass hpass
      | ok header =>
        -- The next pass collects the payload of the frame that this one begins.
        simp only [hseek, hraw, hheader] at hpass
        rw [receiveFrames_of_header hidle hseek hraw hheader]
        obtain ⟨hdrop, -⟩ := Bytes.split?_eq_some_iff.1 hraw
        have hbody : body <:+ buffer :=
          ((List.suffix_append raw body).trans (hdrop ▸ List.drop_suffix start bytes)).trans hbytes
        have hshorter := length_of_split? hraw
        rw [List.length_drop, Header.length] at hshorter
        refine (Loop.returns_collect rfl (Nat.zero_add _) hbody ?_).of_pass hpass
        intro rest next reached hrest hnext
        have hfewer := hrest.length_le
        exact ih rest.length (by omega) hnext (hrest.trans hbody) rfl

/-- The loop returns what comes of offering the bytes, and no pass of it fails. -/
theorem returns_receive (hsound : peer.Sound) (target : Option σ) (buffer : Bytes) :
    Loop.Returns buffer ⟨peer, target, .goes 0⟩ (peer.receive target buffer) := by
  have hstart : (0 : Nat) = buffer.length - buffer.length := (Nat.sub_self _).symm
  rw [hstart]
  cases hpending : peer.pending with
  | none =>
    rw [receive_of_idle hpending]
    exact returns_receiveFrames hpending List.suffix_rfl
  | some frame =>
    refine Loop.returns_collect hpending (hsound frame hpending).size_eq List.suffix_rfl ?_
    intro rest next reached hrest hnext
    exact returns_receiveFrames hnext hrest

end Peer

end PeerProtocol
