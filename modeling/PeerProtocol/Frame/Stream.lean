import PeerProtocol.Frame

/-!
# Streams of frames

All messages of a buffer or a source, one frame after the other, with the error that ends them if
one does. Each frame's list takes the next identity. A decoded frame never reaches beyond the
buffer (`used_le_length`), so decoding on the rest comes to an end.
-/

namespace PeerProtocol.Frame

/-- A decoded frame takes at least one byte and does not reach beyond the buffer. -/
theorem used_le_length {dialect : Dialect} {id : ListId} {buffer : Bytes} {message : Message}
    {used : Nat} (h : decode dialect id buffer = .ok (some (message, used))) :
    0 < used ∧ used ≤ buffer.length := by
  unfold decode at h
  split at h
  · simp at h
  next start _ =>
    split at h
    · simp at h
    next raw rest hraw =>
      obtain ⟨hdrop, hlength⟩ := Bytes.split?_eq_some_iff.1 hraw
      have htotal := congrArg List.length hdrop
      cases hheader : Header.decode raw with
      | error error => simp [hheader, bind, Except.bind] at h
      | ok header =>
        simp only [hheader, bind, Except.bind] at h
        split at h
        · simp [pure, Except.pure] at h
        next payload tail hpayload =>
          obtain ⟨hrest, hsize⟩ := Bytes.split?_eq_some_iff.1 hpayload
          cases hmessage : header.message dialect id payload with
          | error error => simp [hmessage] at h
          | ok decoded =>
            simp only [hmessage, pure, Except.pure, Except.ok.injEq, Option.some.injEq,
              Prod.mk.injEq] at h
            obtain ⟨_, rfl⟩ := h
            simp only [hrest, List.length_drop, List.length_append, Header.length] at htotal hlength
            simp only [Header.length]
            omega

/-- The messages of a buffer with the bytes that each used, up to the end of the last whole frame
or to the first error. -/
def decodeAll (dialect : Dialect) (id : ListId) (buffer : Bytes) :
    List (Message × Nat) × Option CodecError :=
  match _h : decode dialect id buffer with
  | .error error => ([], some error)
  | .ok none => ([], none)
  | .ok (some (message, used)) =>
    let (messages, error) := decodeAll dialect id.next (buffer.drop used)
    ((message, used) :: messages, error)
termination_by buffer.length
decreasing_by
  have hused := used_le_length _h
  simp only [List.length_drop]
  omega

/-- At most `count` messages of a source, each with what the source holds after it, up to the first
error. -/
def readMany (dialect : Dialect) (id : ListId) :
    (count : Nat) → Bytes → List (Message × Bytes) × Option CodecError
  | 0, _ => ([], none)
  | count + 1, source =>
    match read dialect id source with
    | .error error => ([], some error)
    | .ok (message, rest) =>
      let (messages, error) := readMany dialect id.next count rest
      ((message, rest) :: messages, error)

end PeerProtocol.Frame
