import PeerProtocol.Connection

/-!
# The read buffer in memory

A connection reads into memory of a fixed size. What arrives is stored behind the bytes that are
held, and once the collaborator has consumed some of them the others are moved to the front. A view
of the buffer is the list of the bytes that it holds, and storing and moving do to the view what the
connection does to its list of left over bytes (`held_store`, `held_compact`), as long as what
arrives fits.
-/

namespace PeerProtocol

/-- Memory of which the first `filled` bytes were read and not consumed. -/
structure ReadBuffer where
  memory : Bytes
  filled : Nat

namespace ReadBuffer

/-- A buffer that holds nothing. -/
def new (capacity : Nat) : ReadBuffer :=
  ⟨List.replicate capacity 0, 0⟩

/-- The size of the memory. -/
def capacity (buffer : ReadBuffer) : Nat :=
  buffer.memory.length

/-- The size of the region behind the filled part, which is handed to the socket. -/
def free (buffer : ReadBuffer) : Nat :=
  buffer.capacity - buffer.filled

/-- The filled part, which is offered to the collaborator. -/
def held (buffer : ReadBuffer) : Bytes :=
  buffer.memory.take buffer.filled

/-- The socket wrote to the front of the free region. -/
def store (buffer : ReadBuffer) (chunk : Bytes) : ReadBuffer :=
  ⟨buffer.memory.take buffer.filled ++ chunk ++ buffer.memory.drop (buffer.filled + chunk.length),
    buffer.filled + chunk.length⟩

/-- The bytes behind those that were consumed are copied to the front; what stands behind the copy
stays. -/
def compact (buffer : ReadBuffer) (consumed : Nat) : ReadBuffer :=
  let kept := buffer.held.drop consumed
  ⟨kept ++ buffer.memory.drop kept.length, buffer.filled - consumed⟩

/-- The buffer after an answer of the collaborator: nothing moves on an error, or if more was
consumed than is held. -/
def settle (buffer : ReadBuffer) : Except LinkError Nat → ReadBuffer
  | .error _ => buffer
  | .ok consumed => if buffer.filled < consumed then buffer else buffer.compact consumed

variable {buffer : ReadBuffer} {chunk : Bytes} {consumed : Nat}

/-- As many bytes are held as were read and not consumed. -/
theorem length_held (h : buffer.filled ≤ buffer.capacity) : buffer.held.length = buffer.filled := by
  unfold held
  rw [List.length_take]
  exact Nat.min_eq_left h

/-- What fits in the free region does not overfill the memory. -/
theorem filled_add_le (h : buffer.filled ≤ buffer.capacity) (hfits : chunk.length ≤ buffer.free) :
    buffer.filled + chunk.length ≤ buffer.capacity := by
  unfold free at hfits
  omega

/-- A new buffer holds nothing. -/
theorem held_new (capacity : Nat) : (new capacity).held = [] := rfl

/-- The size of a new buffer. -/
theorem capacity_new (capacity : Nat) : (new capacity).capacity = capacity := List.length_replicate

/-- Storing does not change the size of the memory. -/
theorem capacity_store (h : buffer.filled ≤ buffer.capacity) (hfits : chunk.length ≤ buffer.free) :
    (buffer.store chunk).capacity = buffer.capacity := by
  have hsum := filled_add_le h hfits
  have hheld : (buffer.memory.take buffer.filled).length = buffer.filled := length_held h
  unfold capacity at *
  rw [store, List.length_append, List.length_append, hheld, List.length_drop]
  omega

/-- What was stored is held behind what was held before. -/
theorem held_store (h : buffer.filled ≤ buffer.capacity) :
    (buffer.store chunk).held = buffer.held ++ chunk := by
  have hlength : (buffer.held ++ chunk).length = buffer.filled + chunk.length := by
    rw [List.length_append, length_held h]
  rw [held, store]
  show ((buffer.held ++ chunk) ++ _).take (buffer.filled + chunk.length) = buffer.held ++ chunk
  rw [← hlength, List.take_left]

/-- Moving does not change the size of the memory. -/
theorem capacity_compact (h : buffer.filled ≤ buffer.capacity) :
    (buffer.compact consumed).capacity = buffer.capacity := by
  have hheld := length_held h
  unfold capacity at *
  rw [compact, List.length_append, List.length_drop, List.length_drop, hheld]
  omega

/-- What was not consumed is held. -/
theorem held_compact (h : buffer.filled ≤ buffer.capacity) :
    (buffer.compact consumed).held = buffer.held.drop consumed := by
  have hlength : (buffer.held.drop consumed).length = buffer.filled - consumed := by
    rw [List.length_drop, length_held h]
  rw [held, compact]
  show ((buffer.held.drop consumed) ++ _).take (buffer.filled - consumed) = _
  rw [← hlength, List.take_left]

/-- No answer changes the size of the memory. -/
theorem capacity_settle (h : buffer.filled ≤ buffer.capacity) (answer : Except LinkError Nat) :
    (buffer.settle answer).capacity = buffer.capacity := by
  cases answer with
  | error error => rfl
  | ok consumed =>
    rw [settle]
    split
    next => rfl
    next => exact capacity_compact h

/-- No answer makes the buffer hold more. -/
theorem filled_settle_le (buffer : ReadBuffer) (answer : Except LinkError Nat) :
    (buffer.settle answer).filled ≤ buffer.filled := by
  cases answer with
  | error error => exact Nat.le_refl _
  | ok consumed =>
    rw [settle]
    split
    next => exact Nat.le_refl _
    next => exact Nat.sub_le buffer.filled consumed

end ReadBuffer

end PeerProtocol
